import OnePass.Numeral
import OnePass.Literal
import OnePass.Text.Blank
import OnePass.Text.Control
import OnePass.Text.Hidden
import OnePass.Text.Lines
import OnePass.Text.Quoted
import OnePass.Text.Style
import OnePass.Machine.Register
import OnePass.Machine.Mnemonic
import OnePass.Machine.Instruction
import OnePass.Machine.Disassembly
import OnePass.Source.Position
import OnePass.Source.Fault
import OnePass.Source.Token
import OnePass.Source.Statement
import OnePass.Source.Cursor
import OnePass.Source.Reading
import OnePass.Report.Diagnostic
import OnePass.Report.Log
import OnePass.Report.Journal
import OnePass.Assembly.Symbols
import OnePass.Assembly.Operands
import OnePass.Assembly.Image
import OnePass.Assembly.State
import OnePass.Assembly.Execution
import OnePass.Assembly.Listing
import OnePass.Files.Path
import OnePass.Files.Access
import OnePass.Files.Tree
import OnePass.Job
import OnePass.CommandLine.Options
import OnePass.CommandLine.Response
import OnePass.Main
import OnePass.Proofs.Encoding
import OnePass.Proofs.Construction
import OnePass.Proofs.Resolution
import OnePass.Proofs.Steps
import OnePass.Proofs.Sessions
import OnePass.Proofs.Denotation
import OnePass.Proofs.Grammar
import OnePass.Proofs.Traversal
import OnePass.Proofs.Parsing
import OnePass.Proofs.Scanning
import OnePass.Proofs.LexicalGrammar
import OnePass.Proofs.Written
import OnePass.Proofs.Literals
import OnePass.Proofs.Reassembly
import OnePass.Proofs.Composition
import OnePass.Proofs.Warnings
import OnePass.Proofs.Printing
import OnePass.Proofs.Disks
import OnePass.Proofs.Outcomes
import OnePass.Proofs.Rollback
import OnePass.Proofs.Paths
import OnePass.Proofs.Siblings
import OnePass.Proofs.Delivery
import OnePass.Proofs.Reporting
import OnePass.Proofs.Renaming
import OnePass.Proofs.Provenance
import OnePass.Proofs.Lockstep
import OnePass.Proofs.Typing
import OnePass.Proofs.Noninterference
import OnePass.Proofs.Atomicity
import OnePass.Proofs.Relocation
import OnePass.Proofs.ViablePrefix
import OnePass.Proofs.NameTable
import OnePass.Proofs.History
import OnePass.Proofs.PrintedRows
import OnePass.Proofs.Listings
import OnePass.Proofs.PositionalValue
import OnePass.Proofs.LineEndings
import OnePass.Proofs.Respelling
import OnePass.Proofs.DefaultPaths
