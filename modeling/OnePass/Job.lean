import OnePass.Assembly.Execution
import OnePass.Files.Access
import OnePass.Files.Path

/-! # Jobs

    A job assembles one file and writes what comes out of it.  Nothing is
    written unless the whole source assembles, and a binary is removed again
    if the debug file that belongs to it cannot be written. -/

namespace OnePass

/-- What to assemble, and where the results go. -/
structure Job where
  input : String
  /-- Where the binary goes. -/
  output : String
  /-- Where the debug file goes, if one is wanted. -/
  debug : Option String
  /-- Is a listing wanted? -/
  listing : Bool
  deriving DecidableEq, Repr

/-- The job for an input file.  Unless told otherwise the binary goes beside
    the input, and the debug file always does. -/
def Job.plan (input : String) (output : Option String) (debug listing : Bool) : Job where
  input := input
  output := output.getD (Path.withExtension input "o")
  debug := if debug then some (Path.withExtension input "dbg") else none
  listing := listing

/-- Why a job fails. -/
inductive Failure where
  | missingInput (path : String)
  | unreadable (path : String) (cause : FileFault)
  | unwritable (path : String) (cause : FileFault)
  | source (fault : SourceFault)
  deriving DecidableEq, Repr

/-- The wording of a failure. -/
def Failure.message : Failure → String
  | missingInput path     => "can't find " ++ path
  | unreadable path cause => "failed to read " ++ path ++ ": " ++ cause.message
  | unwritable path cause => "failed to write " ++ path ++ ": " ++ cause.message
  | source fault          => fault.fault.message

/-- How a job ends: the assembly as far as it got, and why it failed if it
    did. -/
structure Outcome where
  assembly : Assembly := {}
  failure : Option Failure := none
  deriving DecidableEq, Repr

/-! ## Records -/

def Assembly.log (s : Assembly) (level : Log.Level) (message : String) : Assembly :=
  { s with journal := s.journal.log ⟨level, .output, message⟩ }

/-- Report a fault in the source. -/
def Assembly.reportFault (s : Assembly) (f : SourceFault) : Assembly :=
  { s with journal := s.journal.report ⟨.error, f.position, f.fault.message⟩ }

/-! ## Running -/

namespace Job

variable {m : Type → Type} [Monad m] [FileAccess m]

/-- Write the debug file.  If that fails, take the binary back. -/
def deliverDebug (job : Job) (path : String) (s : Assembly) : m Outcome := do
  match ← FileAccess.write path (encodeText s.image.debugText) with
  | .ok _    => return { assembly := s.log .info ("wrote debug info to " ++ path) }
  | .error e =>
    let s ← match ← FileAccess.remove job.output with
      | .ok _    => pure s
      | .error r => pure (s.log .warn ("cannot remove " ++ job.output ++ ": " ++ r.message))
    return { assembly := s, failure := some (.unwritable path e) }

/-- Write the binary, then the debug file if one is wanted. -/
def deliver (job : Job) (s : Assembly) : m Outcome := do
  match ← FileAccess.write job.output s.image.bytes with
  | .error e => return { assembly := s, failure := some (.unwritable job.output e) }
  | .ok _    =>
    let s := s.log .info ("wrote " ++ decimal s.image.size ++ " words to " ++ job.output)
    match job.debug with
    | none      => return { assembly := s }
    | some path => job.deliverDebug path s

/-- Assemble a source text and deliver the result. -/
def process (job : Job) (source : String) : m Outcome :=
  match Assembler.assemble job.input source {} with
  | .error f s => return { assembly := s.reportFault f, failure := some (.source f) }
  | .ok _ s    => job.deliver s

/-- Run a job. -/
def run (job : Job) : m Outcome := do
  if ← FileAccess.isFile job.input then
    match ← FileAccess.read job.input with
    | .error e => return { failure := some (.unreadable job.input e) }
    | .ok bs   =>
      match decodeText? bs with
      | none        => return { failure := some (.unreadable job.input .notText) }
      | some source => job.process source
  else
    return { failure := some (.missingInput job.input) }

end Job

end OnePass
