import OnePass.Assembly.Image
import OnePass.Assembly.Symbols
import OnePass.Machine.Disassembly
import OnePass.Report.Journal

/-! # Assemblies in progress

    The image, the symbols and the journal so far, and the two ways in which
    a statement can change them: by appending an instruction or by binding a
    label. -/

namespace OnePass

/-- An assembly in progress. -/
structure Assembly where
  image : Image := {}
  symbols : Symbols := {}
  journal : Journal := {}
  deriving DecidableEq, Repr

/-- Start a new image.  Labels stay bound. -/
def Assembly.reset (s : Assembly) : Assembly :=
  { s with image := {} }

namespace Assembly

/-- What the log says about a placed instruction. -/
def placedRecord (pos : Position) (address : Nat) (i : Instruction) : Log.Record :=
  ⟨.debug, .assembly, pos.text ++ ": [" ++ hexPadded 4 address ++ "] "
    ++ hexPadded 4 i.encode.toNat ++ " " ++ i.text⟩

/-- What the log says about a bound label. -/
def boundRecord (pos : Position) (name : String) (before : Option Nat) (address : Nat) :
    Log.Record :=
  let change := match before with
    | some old => "rebound 0x" ++ hexPadded 4 old ++ " -> "
    | none     => "= "
  ⟨.debug, .assembly, pos.text ++ ": label `" ++ name ++ "` " ++ change
    ++ "0x" ++ hexPadded 4 address⟩

/-- The warnings for what a field cut off. -/
def overflowWarnings (pos : Position) (lost : Option Overflow) : List Diagnostic :=
  lost.toList.map fun o => ⟨.warning, pos, o.message⟩

/-- Append an instruction, warning first if a field cut something off. -/
def withInstruction (s : Assembly) (pos : Position) (i : Instruction)
    (lost : Option Overflow) : Assembly :=
  let address := s.image.here
  let warned := (overflowWarnings pos lost).foldl Journal.report s.journal
  { s with
    image := s.image.push ⟨pos, i⟩
    journal := warned.log (placedRecord pos address i) }

/-- Take over symbols in which `name` was bound to the current address. -/
def withLabel (s : Assembly) (pos : Position) (name : String) (before : Option Nat)
    (symbols : Symbols) : Assembly :=
  let address := s.image.here
  { s with symbols, journal := s.journal.log (boundRecord pos name before address) }

end Assembly

end OnePass
