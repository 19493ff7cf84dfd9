import OnePass.Report.Diagnostic
import OnePass.Report.Log

/-! # Journals

    Everything that is reported during an assembly, in the order in which it
    happens. -/

namespace OnePass

/-- One thing reported. -/
inductive Event where
  | diagnostic (d : Diagnostic)
  | log (r : Log.Record)
  deriving DecidableEq, Repr

/-- The events so far, oldest first. -/
structure Journal where
  events : Array Event := #[]
  deriving DecidableEq, Repr

namespace Journal

def empty : Journal := {}

def add (j : Journal) (e : Event) : Journal :=
  { j with events := j.events.push e }

/-- Report something about the source. -/
def report (j : Journal) (d : Diagnostic) : Journal :=
  j.add (.diagnostic d)

/-- Report something about the work. -/
def log (j : Journal) (r : Log.Record) : Journal :=
  j.add (.log r)

def append (j k : Journal) : Journal :=
  { j with events := j.events ++ k.events }

/-- The diagnostic of an event, if it is one. -/
def diagnosticOf? : Event → Option Diagnostic
  | .diagnostic d => some d
  | .log _        => none

/-- The log record of an event, if it is one. -/
def recordOf? : Event → Option Log.Record
  | .diagnostic _ => none
  | .log r        => some r

/-- The diagnostics, oldest first. -/
def diagnostics (j : Journal) : List Diagnostic :=
  j.events.toList.filterMap diagnosticOf?

/-- The log records, oldest first. -/
def records (j : Journal) : List Log.Record :=
  j.events.toList.filterMap recordOf?

def warnings (j : Journal) : List Diagnostic :=
  j.diagnostics.filter (·.severity == .warning)

def errors (j : Journal) : List Diagnostic :=
  j.diagnostics.filter (·.severity == .error)

def hasError (j : Journal) : Bool :=
  !j.errors.isEmpty

/-! ### The views after each operation -/

@[simp] theorem diagnostics_empty : empty.diagnostics = [] := rfl

@[simp] theorem records_empty : empty.records = [] := rfl

@[simp] theorem diagnostics_report (j : Journal) (d : Diagnostic) :
    (j.report d).diagnostics = j.diagnostics ++ [d] := by
  simp [report, add, diagnostics, diagnosticOf?]

@[simp] theorem diagnostics_log (j : Journal) (r : Log.Record) :
    (j.log r).diagnostics = j.diagnostics := by
  simp [log, add, diagnostics, diagnosticOf?]

@[simp] theorem records_report (j : Journal) (d : Diagnostic) :
    (j.report d).records = j.records := by
  simp [report, add, records, recordOf?]

@[simp] theorem records_log (j : Journal) (r : Log.Record) :
    (j.log r).records = j.records ++ [r] := by
  simp [log, add, records, recordOf?]

@[simp] theorem diagnostics_append (j k : Journal) :
    (j.append k).diagnostics = j.diagnostics ++ k.diagnostics := by
  simp [append, diagnostics]

end Journal

end OnePass
