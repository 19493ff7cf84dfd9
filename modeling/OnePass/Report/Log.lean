import OnePass.Text.Style

/-! # Log records

    What the assembler tells about its own work, as opposed to the source it
    works on.  Which records are shown depends on a threshold. -/

namespace OnePass.Log

/-- How much a record matters. -/
inductive Level where
  | error
  | warn
  | info
  | debug
  | trace
  deriving DecidableEq, Repr

namespace Level

def label : Level → String
  | error => "ERROR"
  | warn  => "WARN"
  | info  => "INFO"
  | debug => "DEBUG"
  | trace => "TRACE"

/-- Lower ranks matter more. -/
def rank : Level → Nat
  | error => 1
  | warn  => 2
  | info  => 3
  | debug => 4
  | trace => 5

end Level

/-- The part of the program that a record comes from. -/
inductive Channel where
  /-- The execution of statements. -/
  | assembly
  /-- The writing of output files. -/
  | output
  /-- The command line. -/
  | command
  deriving DecidableEq, Repr

def Channel.name : Channel → String
  | assembly => "s16asm::session"
  | output   => "s16asm::emit"
  | command  => "s16asm"

/-- A log record. -/
structure Record where
  level : Level
  channel : Channel
  message : String
  deriving DecidableEq, Repr

/-- A record with its heading. -/
def Record.text (r : Record) : String :=
  "[" ++ Text.padRight 5 r.level.label ++ " " ++ r.channel.name ++ "] " ++ r.message

/-- The least important level that is shown; `none` shows nothing. -/
abbrev Threshold := Option Level

/-- Is a record of this level shown? -/
def Threshold.shows (t : Threshold) (l : Level) : Bool :=
  match t with
  | some most => l.rank ≤ most.rank
  | none      => false

/-- The threshold of a given name, in either case.  No name at all stands for
    errors only. -/
def Threshold.ofName? (name : String) : Option Threshold :=
  match name.toLower with
  | ""      => some (some .error)
  | "off"   => some none
  | "error" => some (some .error)
  | "warn"  => some (some .warn)
  | "info"  => some (some .info)
  | "debug" => some (some .debug)
  | "trace" => some (some .trace)
  | _       => none

end OnePass.Log
