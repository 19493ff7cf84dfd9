import OnePass.Job

/-! # Options

    Arguments are read from left to right; the first one that asks for help
    or for the version, or that is wrong, decides.

    * `OptionReader.step` : what one argument adds.
    * `Invocation.read`   : the job that an argument list asks for. -/

namespace OnePass

/-- Why a command line is refused. -/
inductive UsageFault where
  | unknownOption (text : String)
  | repeatedOption (name : String)
  | missingValue (name : String)
  | valueGiven (name : String)
  | secondInput (text : String)
  | emptyInput
  | noInput
  deriving DecidableEq, Repr

/-- The wording of a fault. -/
def UsageFault.message : UsageFault → String
  | unknownOption text  => "unexpected argument '" ++ text ++ "' found"
  | repeatedOption name => "the argument '" ++ name ++ "' cannot be used multiple times"
  | missingValue name   => "a value is required for '" ++ name ++ "' but none was supplied"
  | valueGiven name     => "unexpected value for '" ++ name ++ "' found; no more were expected"
  | secondInput text    => "unexpected argument '" ++ text ++ "' found"
  | emptyInput          => "a value is required for '<INPUT>' but none was supplied"
  | noInput             => "the following required arguments were not provided: <INPUT>"

/-- What ends the reading of arguments early. -/
inductive Halt where
  | help
  | version
  | usage (fault : UsageFault)
  deriving DecidableEq, Repr

/-- What the arguments have said so far. -/
structure Options where
  input : Option String := none
  output : Option String := none
  debug : Bool := false
  listing : Bool := false
  verbose : Bool := false
  deriving DecidableEq, Repr

/-- The options that take no value. -/
inductive Flag where
  | debug
  | listing
  | verbose
  | help
  | version
  deriving DecidableEq, Repr

namespace Flag

def ofShort? : Char → Option Flag
  | 'g' => some debug
  | 'd' => some listing
  | 'v' => some verbose
  | 'h' => some help
  | 'V' => some version
  | _   => none

def ofLong? : String → Option Flag
  | "dump"    => some listing
  | "verbose" => some verbose
  | "help"    => some help
  | "version" => some version
  | _         => none

def name : Flag → String
  | debug   => "-g"
  | listing => "--dump"
  | verbose => "--verbose"
  | help    => "--help"
  | version => "--version"

end Flag

namespace Options

/-- Turn a flag on.  No flag may be given twice. -/
def set (o : Options) (f : Flag) : Except Halt Options :=
  let repeated : Except Halt Options := .error (.usage (.repeatedOption f.name))
  match f with
  | .debug   => if o.debug then repeated else .ok { o with debug := true }
  | .listing => if o.listing then repeated else .ok { o with listing := true }
  | .verbose => if o.verbose then repeated else .ok { o with verbose := true }
  | .help    => .error .help
  | .version => .error .version

/-- Set the output path, which must not be empty. -/
def setOutput (o : Options) (path : String) : Except Halt Options :=
  if path = "" then .error (.usage (.missingValue "--output"))
  else if o.output.isSome then .error (.usage (.repeatedOption "--output"))
  else .ok { o with output := some path }

/-- Set the input path, which must not be empty. -/
def setInput (o : Options) (path : String) : Except Halt Options :=
  if o.input.isSome then .error (.usage (.secondInput path))
  else if path = "" then .error (.usage .emptyInput)
  else .ok { o with input := some path }

end Options

/-- What the next argument is taken for. -/
inductive Expecting where
  | anything
  /-- The output path, because `-o` or `--output` came last. -/
  | outputPath
  /-- An input path, because `--` came earlier. -/
  | input
  deriving DecidableEq, Repr

/-- The state of reading between two arguments. -/
structure OptionReader where
  options : Options := {}
  expecting : Expecting := .anything
  deriving DecidableEq, Repr

namespace OptionReader

/-- Read short options that follow one dash.  What follows an `o` is its
    value; one `=` before the value does not count. -/
def cluster (o : Options) : List Char → Except Halt OptionReader
  | []      => .ok { options := o }
  | c :: cs =>
    if c = 'o' then
      match cs with
      | []          => .ok { options := o, expecting := .outputPath }
      | '=' :: path => (o.setOutput (String.ofList path)).map fun o => { options := o }
      | path        => (o.setOutput (String.ofList path)).map fun o => { options := o }
    else match Flag.ofShort? c with
      | some f =>
        match o.set f with
        | .ok o    => cluster o cs
        | .error h => .error h
      | none   => .error (.usage (.unknownOption (String.ofList ['-', c])))

/-- Read a long option, given without its two dashes. -/
def long (o : Options) (cs : List Char) : Except Halt OptionReader :=
  let name := String.ofList (cs.takeWhile (· != '='))
  let value : Option String := match cs.dropWhile (· != '=') with
    | _ :: path => some (String.ofList path)
    | []        => none
  if name = "output" then
    match value with
    | some path => (o.setOutput path).map fun o => { options := o }
    | none      => .ok { options := o, expecting := .outputPath }
  else match Flag.ofLong? name, value with
    | some f, none   => (o.set f).map fun o => { options := o }
    | some f, some _ => .error (.usage (.valueGiven f.name))
    | none, _        => .error (.usage (.unknownOption ("--" ++ name)))

/-- Read an argument where anything may stand. -/
def anything (o : Options) (arg : String) : Except Halt OptionReader :=
  match arg.toList with
  | ['-', '-']       => .ok { options := o, expecting := .input }
  | '-' :: '-' :: cs => long o cs
  | '-' :: c :: cs   => cluster o (c :: cs)
  | _                => (o.setInput arg).map fun o => { options := o }

/-- Read the value of the output option.  It must not look like an option. -/
def outputPath (o : Options) (arg : String) : Except Halt OptionReader :=
  match arg.toList with
  | '-' :: _ :: _ => .error (.usage (.missingValue "--output"))
  | _             => (o.setOutput arg).map fun o => { options := o }

/-- Read one argument. -/
def step (r : OptionReader) (arg : String) : Except Halt OptionReader :=
  match r.expecting with
  | .anything   => anything r.options arg
  | .outputPath => outputPath r.options arg
  | .input      => (r.options.setInput arg).map fun o => { r with options := o }

end OptionReader

/-- A job, and whether to tell about it in detail. -/
structure Invocation where
  job : Job
  verbose : Bool
  deriving DecidableEq, Repr

/-- The invocation that options amount to.  An input is required. -/
def Options.invocation (o : Options) : Except Halt Invocation :=
  match o.input with
  | some input => .ok ⟨Job.plan input o.output o.debug o.listing, o.verbose⟩
  | none       => .error (.usage .noInput)

/-- The invocation that an argument list asks for. -/
def Invocation.read (args : List String) : Except Halt Invocation :=
  match args.foldlM OptionReader.step {} with
  | .error h => .error h
  | .ok r    =>
    if r.expecting = .outputPath then .error (.usage (.missingValue "--output"))
    else r.options.invocation

end OnePass
