import OnePass.Assembly.Listing
import OnePass.CommandLine.Options
import OnePass.Text.Control
import OnePass.Text.Quoted

/-! # Responses

    A command line is answered with an exit status and two texts, one for
    each output stream.

    * `CommandLine.messages` : what a finished job says on standard error.
    * `CommandLine.respond`  : carry out a command line. -/

namespace OnePass

/-- What a command line is answered with. -/
structure Response where
  /-- The exit status. -/
  status : Nat
  /-- The text for standard output. -/
  out : String := ""
  /-- The text for standard error. -/
  err : String := ""
  deriving DecidableEq, Repr

namespace CommandLine

def versionText : String :=
  "s16asm 0.1.0\n"

def helpText : String :=
  "s16asm 0.1.0\n" ++
  "  Kanade <kanade.k.1228@gmail.com>\n" ++
  "  Single-pass assembler for the S16 architecture\n" ++
  "\n" ++
  "Usage:\n" ++
  "  s16asm [OPTIONS] <INPUT>\n" ++
  "\n" ++
  "Arguments:\n" ++
  "  <INPUT>  Input file\n" ++
  "\n" ++
  "Options:\n" ++
  "  -o, --output <OUTPUT>  Output file [default: input with `.o` extension]\n" ++
  "  -g                     Create debug file (input with `.dbg` extension)\n" ++
  "  -d, --dump             Dump assembly listing\n" ++
  "  -v, --verbose          Enable debug logging\n" ++
  "  -h, --help             Print help\n" ++
  "  -V, --version          Print version\n"

/-- What the log says about the job at hand. -/
def jobRecord (job : Job) : Log.Record :=
  let debug := match job.debug with
    | some path => "Some(" ++ Text.quoted path ++ ")"
    | none      => "None"
  let listing := if job.listing then "true" else "false"
  ⟨.debug, .command, "Config \x7b input: " ++ Text.quoted job.input ++ ", output: "
    ++ Text.quoted job.output ++ ", debug: " ++ debug ++ ", dump: " ++ listing ++ " \x7d"⟩

/-- A log record on standard error: lines after the first are indented, and
    control codes are left out.  The newline at the end is part of the record,
    so a string that the record leaves open takes it in. -/
def recordText (r : Log.Record) : String :=
  Text.withoutControls
    (String.intercalate "\n    " ((Text.pieces '\n' r.text.toList).map String.ofList) ++ "\n")

/-- What goes to standard error. -/
inductive Message where
  /-- Something reported while a job ran. -/
  | event (e : Event)
  /-- Why a job failed. -/
  | failure (f : Failure)
  deriving DecidableEq, Repr

def Message.text : Message → String
  | event (.diagnostic d) => d.text ++ "\n"
  | event (.log r)        => recordText r
  | failure f             =>
    Text.Style.escape .red ++ Text.Style.escape .bold ++ "error"
      ++ Text.Style.escape .plainColour ++ Text.Style.escape .plainWeight ++ ": "
      ++ f.message ++ "\n"

/-- Is an event shown?  A diagnostic always is. -/
def shows (threshold : Log.Threshold) : Event → Bool
  | .diagnostic _ => true
  | .log r        => threshold.shows r.level

/-- The messages about a job that has been run.  A fault in the source is in
    the journal already and is not told twice. -/
def messages (threshold : Log.Threshold) (job : Job) (o : Outcome) : List Message :=
  let journal := (Journal.empty.log (jobRecord job)).append o.assembly.journal
  let reported := (journal.events.toList.filter (shows threshold)).map .event
  match o.failure with
  | none   => reported
  | some f => if journal.hasError then reported else reported ++ [.failure f]

/-- A listing on standard output. -/
def listingText (s : Assembly) : String :=
  String.join ((Listing.lines s).map (· ++ "\n"))

/-- The threshold of the log: the one named by the environment, or else one
    that `--verbose` decides. -/
def threshold (named : Option String) (verbose : Bool) : Log.Threshold :=
  match named with
  | some name => (Log.Threshold.ofName? name).getD none
  | none      => if verbose then some .debug else some .warn

/-- The answer to a job that has been run. -/
def answer (threshold : Log.Threshold) (job : Job) (o : Outcome) : Response where
  status := if o.failure.isNone then 0 else 1
  out := if o.failure.isNone && job.listing then listingText o.assembly else ""
  err := String.join ((messages threshold job o).map Message.text)

variable {m : Type → Type} [Monad m] [FileAccess m]

/-- Carry out a command line.  `logName` is the threshold that the environment
    names, if any. -/
def respond (args : List String) (logName : Option String) : m Response :=
  match Invocation.read args with
  | .error .help      => return { status := 0, out := helpText }
  | .error .version   => return { status := 0, out := versionText }
  | .error (.usage f) => return { status := 2, err := "error: " ++ f.message ++ "\n" }
  | .ok v             => do
    let outcome ← v.job.run
    return answer (threshold logName v.verbose) v.job outcome

end CommandLine

end OnePass
