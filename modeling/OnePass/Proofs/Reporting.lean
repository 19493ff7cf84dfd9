import OnePass.CommandLine.Response
import OnePass.Proofs.Rollback
import OnePass.Proofs.Warnings

/-! # A failure is told once

    A fault in the source is told by the journal, with its place; any other
    failure is told at the end, without one.  Which of the two it is is read
    off the journal, so it matters that nothing but a fault in the source ever
    puts an error there.

    * `CommandLine.told_messages` : what is said besides the log.
    * `FileSystem.tells` : warnings, and then the failure if there is one.
    * `FileSystem.ReportsOnce` : what a response has to say about a job.
    * `FileSystem.respond_reports` : every response says that, but an error
      without a place is written in bold red. -/

namespace OnePass

/-- A fault in the source, as it is reported. -/
def SourceFault.diagnostic (f : SourceFault) : Diagnostic :=
  ⟨.error, f.position, f.fault.message⟩

/-! ## Journals -/

namespace Journal

theorem hasError_eq_false_iff {j : Journal} :
    j.hasError = false ↔ ∀ w ∈ j.diagnostics, w.severity = .warning := by
  unfold hasError errors
  rw [Bool.not_eq_false', List.isEmpty_iff, List.filter_eq_nil_iff]
  refine forall₂_congr fun w _ => ?_
  cases w.severity <;> simp

theorem hasError_congr {j k : Journal} (h : j.diagnostics = k.diagnostics) :
    j.hasError = k.hasError := by
  unfold hasError errors
  rw [h]

end Journal

/-! ## Messages -/

namespace CommandLine

namespace Message

/-- A message about a place in the source. -/
def note (d : Diagnostic) : Message :=
  .event (.diagnostic d)

def isLog : Message → Bool
  | event (.log _) => true
  | _              => false

/-- An error with its place in the source. -/
def IsLocated (m : Message) : Prop :=
  ∃ d : Diagnostic, d.severity = .error ∧ m = note d

/-- An error without a place. -/
def IsUnlocated (m : Message) : Prop :=
  ∃ f, m = failure f

/-- The words of a message, with no styles. -/
def plainText : Message → String
  | event (.diagnostic d) =>
    let kind := match d.severity with
      | .error   => "error"
      | .warning => "warning"
    d.position.file ++ ":" ++ decimal d.position.line ++ ": " ++ kind ++ ": " ++ d.message ++ "\n"
  | event (.log r) => recordText r
  | failure f      => "error: " ++ f.message ++ "\n"

/-- Only an error without a place is not written as it is worded: it starts
    with an escape code. -/
theorem text_eq_plainText_iff {m : Message} : m.text = m.plainText ↔ ¬ m.IsUnlocated := by
  cases m with
  | event e =>
    refine iff_of_true ?_ ?_
    · cases e with
      | log r => rfl
      | diagnostic d =>
        obtain ⟨severity, position, message⟩ := d
        cases severity <;> rfl
    · rintro ⟨f, hf⟩
      cases hf
  | failure f =>
    refine iff_of_false ?_ (not_not_intro ⟨f, rfl⟩)
    intro h
    have hhead := congrArg (fun s : String => s.toList.head?) h
    simp [text, plainText, Text.Style.escape] at hhead

/-- An error without a place has its first word in bold red. -/
theorem text_failure (f : Failure) :
    (failure f).text = "\x1b[31m\x1b[1merror\x1b[39m\x1b[22m: " ++ f.message ++ "\n" := by
  have hword : Text.Style.escape .red ++ Text.Style.escape .bold ++ "error"
      ++ Text.Style.escape .plainColour ++ Text.Style.escape .plainWeight ++ ": " =
      "\x1b[31m\x1b[1merror\x1b[39m\x1b[22m: " := by decide
  rw [text, hword]

end Message

/-- What is said besides the log. -/
def told (ms : List Message) : List Message :=
  ms.filter (!·.isLog)

theorem told_append (ms ms' : List Message) : told (ms ++ ms') = told ms ++ told ms' :=
  List.filter_append ..

/-- The threshold has no say in what is told besides the log. -/
theorem told_events (t : Log.Threshold) (es : List Event) :
    told ((es.filter (shows t)).map .event) =
      (es.filterMap Journal.diagnosticOf?).map .note := by
  induction es with
  | nil => rfl
  | cons e es ih =>
    cases e with
    | diagnostic d =>
      have hshows : shows t (.diagnostic d) = true := rfl
      have hkept : Journal.diagnosticOf? (.diagnostic d) = some d := rfl
      rw [List.filter_cons_of_pos hshows, List.map_cons, List.filterMap_cons_some hkept,
        List.map_cons, ← ih]
      rfl
    | log r =>
      have hdropped : Journal.diagnosticOf? (.log r) = none := rfl
      rw [List.filterMap_cons_none hdropped, ← ih]
      by_cases hshows : shows t (.log r) = true
      · rw [List.filter_cons_of_pos hshows]
        rfl
      · rw [List.filter_cons_of_neg hshows]

/-- The diagnostics are told, and the failure if none of them is an error. -/
theorem told_messages (t : Log.Threshold) (job : Job) (o : Outcome) :
    told (messages t job o) = o.assembly.journal.diagnostics.map .note ++
      match o.failure with
      | none   => []
      | some f => if o.assembly.journal.hasError then [] else [.failure f] := by
  have hdiagnostics : ((Journal.empty.log (jobRecord job)).append
      o.assembly.journal).diagnostics = o.assembly.journal.diagnostics := by simp
  have hevents := told_events t
    ((Journal.empty.log (jobRecord job)).append o.assembly.journal).events.toList
  rw [← Journal.diagnostics, hdiagnostics] at hevents
  unfold messages
  dsimp only
  rw [Journal.hasError_congr hdiagnostics]
  cases o.failure with
  | none => rw [hevents, List.append_nil]
  | some f =>
    dsimp only
    by_cases herror : o.assembly.journal.hasError = true
    · rw [if_pos herror, if_pos herror, hevents, List.append_nil]
    · rw [if_neg herror, if_neg herror, told_append, hevents]
      rfl

end CommandLine

open CommandLine
open Denotation (warnings diagnostics_of_run severity_of_mem_warnings)

namespace FileSystem

/-! ## What is told of a job -/

/-- What is told of a job that ends with this failure, or without one. -/
inductive Tells : Option Failure → List Message → Prop
  | success {ws : List Diagnostic} :
      (∀ w ∈ ws, w.severity = .warning) → Tells none (ws.map .note)
  | located {ws : List Diagnostic} {f : SourceFault} :
      (∀ w ∈ ws, w.severity = .warning) →
      Tells (some (.source f)) (ws.map .note ++ [.note f.diagnostic])
  | unlocated {ws : List Diagnostic} {f : Failure} :
      (∀ w ∈ ws, w.severity = .warning) → (∀ g, f ≠ .source g) →
      Tells (some f) (ws.map .note ++ [.failure f])

variable (fs : FileSystem) {job : Job} {d : Disk} {s : Assembly}

theorem warnings_of_assembles (h : fs.Assembles job d s) :
    ∀ w ∈ s.journal.diagnostics, w.severity = .warning := by
  obtain ⟨source, _, hassemble⟩ := h
  obtain ⟨ss, _, hrun⟩ := Assembler.assemble_eq_ok_iff.1 hassemble
  rw [diagnostics_of_run hrun]
  exact fun w hw => severity_of_mem_warnings hw

/-- Up to a fault in the source there are no errors. -/
theorem warnings_of_fault {source : String} {f : SourceFault}
    (h : Assembler.assemble job.input source {} = .error f s) :
    ∀ w ∈ s.journal.diagnostics, w.severity = .warning := by
  rcases Assembler.assemble_eq_error_iff.1 h with ⟨_, rfl⟩ | ⟨ss, _, hrun⟩
  · intro w hw
    cases hw
  · obtain ⟨k, hbreaks⟩ := Assembler.executeAll_eq_error_iff.1 hrun
    rw [diagnostics_of_run hbreaks.before]
    exact fun w hw => severity_of_mem_warnings hw

theorem told_of_warnings (t : Log.Threshold) {o : Outcome}
    (h : ∀ w ∈ o.assembly.journal.diagnostics, w.severity = .warning) :
    told (messages t job o) = o.assembly.journal.diagnostics.map .note ++
      (o.failure.map Message.failure).toList := by
  rw [told_messages, Journal.hasError_eq_false_iff.2 h]
  cases o.failure <;> rfl

theorem told_of_fault (t : Log.Threshold) (f : SourceFault) :
    told (messages t job ⟨s.reportFault f, some (.source f)⟩) =
      s.journal.diagnostics.map .note ++ [.note f.diagnostic] := by
  have hdiagnostics : (s.reportFault f).journal.diagnostics =
      s.journal.diagnostics ++ [f.diagnostic] := Journal.diagnostics_report ..
  have herror : (s.reportFault f).journal.hasError = true := by
    rw [← Bool.not_eq_false, Journal.hasError_eq_false_iff, hdiagnostics]
    intro hall
    cases hall f.diagnostic (by simp)
  rw [told_messages]
  dsimp only
  rw [herror, if_pos rfl, hdiagnostics, List.map_append, List.append_nil]
  rfl

/-- Nothing but a fault in the source puts an error into the journal, so each
    failure is told once. -/
theorem tells (t : Log.Threshold) (job : Job) (d : Disk) :
    Tells (fs.run job d).1.failure (told (messages t job (fs.run job d).1)) := by
  have hends := fs.ends job d
  generalize (fs.run job d).1 = o at hends ⊢
  generalize (fs.run job d).2 = d' at hends
  cases hends with
  | missing | unreadable | notText =>
    have hempty : ∀ w ∈ Journal.empty.diagnostics, w.severity = .warning := by simp
    rw [told_of_warnings t hempty]
    exact .unlocated hempty (by simp)
  | faulty hreads hfault =>
    rw [told_of_fault]
    exact .located (warnings_of_fault hfault)
  | binaryRefused hs =>
    have hwarnings := warnings_of_assembles fs hs
    rw [told_of_warnings t hwarnings]
    exact .unlocated hwarnings (by simp)
  | written hs _ _ hsame | bothWritten hs _ _ _ hsame =>
    have hwarnings := warnings_of_assembles fs hs
    rw [← hsame.diagnostics_eq] at hwarnings
    rw [told_of_warnings t hwarnings]
    dsimp only
    rw [Option.map_none, Option.toList_none, List.append_nil]
    exact .success hwarnings
  | debugRefused hs _ _ _ hsame =>
    have hwarnings := warnings_of_assembles fs hs
    rw [← hsame.diagnostics_eq] at hwarnings
    rw [told_of_warnings t hwarnings]
    exact .unlocated hwarnings (by simp)

/-! ## Responses -/

/-- The response to a command line, and the disk that it leaves. -/
def respond (fs : FileSystem) (args : List String) (logName : Option String) (d : Disk) :
    Response × Disk :=
  (@CommandLine.respond (StateM Disk) _ fs.access args logName).run d

theorem respond_eq {args : List String} {v : Invocation} (hargs : Invocation.read args = .ok v)
    (logName : Option String) :
    fs.respond args logName d =
      (answer (threshold logName v.verbose) v.job (fs.run v.job d).1, (fs.run v.job d).2) := by
  unfold respond CommandLine.respond
  rw [hargs]
  rfl

/-- The input is missing or cannot be read, or an output cannot be written. -/
def FailsUnlocated (fs : FileSystem) (job : Job) (d : Disk) : Prop :=
  ∃ f, (∀ g, f ≠ Failure.source g) ∧ (fs.FailsBefore job d f ∨ fs.FailsAfter job d f)

/-- What a response says about a job, where `ms` is what it tells besides the
    log. -/
structure ReportsOnce (fs : FileSystem) (job : Job) (d : Disk) (r : Response)
    (ms : List Message) : Prop where
  /-- Warnings, and after them one error if the job fails. -/
  shape : ∃ ws : List Diagnostic, (∀ w ∈ ws, w.severity = .warning) ∧
    ((r.status = 0 ∧ ms = ws.map .note) ∨
      (r.status = 1 ∧ ∃ e : Message, (e.IsLocated ∨ e.IsUnlocated) ∧ ms = ws.map .note ++ [e]))
  located : (∃ e ∈ ms, e.IsLocated) ↔
    ∃ source f s, fs.Reads job d source ∧ Assembler.assemble job.input source {} = .error f s
  unlocated : (∃ e ∈ ms, e.IsUnlocated) ↔ fs.FailsUnlocated job d
  /-- A source that is not well formed is not warned about. -/
  unread : ∀ source f, fs.Reads job d source → readSource job.input source = .error f →
    ms = [.note f.diagnostic]
  /-- A run that breaks off has warned about the statements before. -/
  brokenOff : ∀ source ss f s, fs.Reads job d source → readSource job.input source = .ok ss →
    Assembler.executeAll ss {} = .error f s →
    ∃ k, Assembler.BreaksOff ss {} k f s ∧
      ms = (warnings (ss.take k)).map .note ++ [.note f.diagnostic]
  silent : ¬ (r.status = 0 ∧ job.listing = true) → r.out = ""
  listing : r.status = 0 → job.listing = true →
    ∃ s, fs.Assembles job d s ∧ r.out = String.join ((Listing.lines s).map (· ++ "\n"))

theorem shape_of_tells {o : Option Failure} {ms : List Message} (h : Tells o ms) :
    ∃ ws : List Diagnostic, (∀ w ∈ ws, w.severity = .warning) ∧
      ((o = none ∧ ms = ws.map .note) ∨
        (o.isSome ∧ ∃ e : Message, (e.IsLocated ∨ e.IsUnlocated) ∧ ms = ws.map .note ++ [e])) := by
  cases h with
  | success hws => exact ⟨_, hws, .inl ⟨rfl, rfl⟩⟩
  | @located ws f hws =>
    exact ⟨ws, hws, .inr ⟨rfl, _, .inl ⟨f.diagnostic, rfl, rfl⟩, rfl⟩⟩
  | @unlocated ws f hws _ => exact ⟨ws, hws, .inr ⟨rfl, _, .inr ⟨f, rfl⟩, rfl⟩⟩

/-- If no warning is of a kind, it depends on the last message whether any
    message is. -/
theorem exists_mem_notes_append_iff {P : Message → Prop} {ws : List Diagnostic}
    (h : ∀ w ∈ ws, ¬ P (.note w)) (ms : List Message) :
    (∃ m ∈ ws.map .note ++ ms, P m) ↔ ∃ m ∈ ms, P m := by
  constructor
  · rintro ⟨m, hm, hp⟩
    rcases List.mem_append.1 hm with hwarning | hlast
    · obtain ⟨w, hw, rfl⟩ := List.mem_map.1 hwarning
      exact absurd hp (h w hw)
    · exact ⟨m, hlast, hp⟩
  · rintro ⟨m, hm, hp⟩
    exact ⟨m, List.mem_append_right _ hm, hp⟩

theorem isLocated_note_iff {w : Diagnostic} :
    (Message.note w).IsLocated ↔ w.severity = .error := by
  constructor
  · rintro ⟨d, hd, heq⟩
    cases heq
    exact hd
  · exact fun h => ⟨w, h, rfl⟩

theorem not_isUnlocated_note (w : Diagnostic) : ¬ (Message.note w).IsUnlocated := by
  rintro ⟨f, hf⟩
  cases hf

theorem not_isLocated_failure (f : Failure) : ¬ (Message.failure f).IsLocated := by
  rintro ⟨d, _, hd⟩
  cases hd

/-- The one error has a place just if it is a fault in the source. -/
theorem located_iff_of_tells {o : Option Failure} {ms : List Message} (h : Tells o ms) :
    (∃ e ∈ ms, e.IsLocated) ↔ ∃ f, o = some (.source f) := by
  have hnone : ∀ {ws : List Diagnostic}, (∀ w ∈ ws, w.severity = .warning) →
      ∀ w ∈ ws, ¬ (Message.note w).IsLocated := by
    intro ws hws w hw
    rw [isLocated_note_iff, hws w hw]
    simp
  cases h with
  | @success ws hws =>
    rw [← List.append_nil (ws.map _), exists_mem_notes_append_iff (hnone hws)]
    simp
  | @located ws f hws =>
    rw [exists_mem_notes_append_iff (hnone hws)]
    exact iff_of_true ⟨_, List.mem_singleton_self _, isLocated_note_iff.2 rfl⟩ ⟨f, rfl⟩
  | @unlocated ws f hws hother =>
    rw [exists_mem_notes_append_iff (hnone hws)]
    simpa [not_isLocated_failure] using hother

theorem unlocated_iff_of_tells {o : Option Failure} {ms : List Message} (h : Tells o ms) :
    (∃ e ∈ ms, e.IsUnlocated) ↔ ∃ f, (∀ g, f ≠ .source g) ∧ o = some f := by
  have hnone : ∀ ws : List Diagnostic, ∀ w ∈ ws, ¬ (Message.note w).IsUnlocated :=
    fun ws w _ => not_isUnlocated_note w
  cases h with
  | @success ws hws =>
    rw [← List.append_nil (ws.map _), exists_mem_notes_append_iff (hnone ws)]
    simp
  | @located ws f hws =>
    rw [exists_mem_notes_append_iff (hnone ws)]
    refine iff_of_false (by simp [not_isUnlocated_note]) ?_
    rintro ⟨g, hother, hg⟩
    exact hother f (Option.some.inj hg).symm
  | @unlocated ws f hws hother =>
    rw [exists_mem_notes_append_iff (hnone ws)]
    exact iff_of_true ⟨_, List.mem_singleton_self _, f, rfl⟩ ⟨f, hother, rfl⟩

/-- Which failures have a place. -/
theorem failure_eq_source_iff :
    (∃ f, (fs.run job d).1.failure = some (.source f)) ↔
      ∃ source f s, fs.Reads job d source ∧
        Assembler.assemble job.input source {} = .error f s := by
  constructor
  · rintro ⟨f, hf⟩
    rcases fs.failure_eq_some_iff.1 hf with h | h
    · cases h with
      | faulty hreads hfault => exact ⟨_, f, _, hreads, hfault⟩
    · cases h
  · rintro ⟨source, f, s, hreads, hfault⟩
    exact ⟨f, fs.failure_eq_some_iff.2 (.inl (.faulty hreads hfault))⟩

/-- A listing does not show the log. -/
theorem lines_of_sameButLog {s' : Assembly} (h : s.SameButLog s') :
    Listing.lines s' = Listing.lines s := by
  unfold Listing.lines Listing.rows
  rw [h.image_eq, h.symbols_eq]

theorem assembles_of_success (h : (fs.run job d).1.failure = none) :
    ∃ s, fs.Assembles job d s ∧ s.SameButLog (fs.run job d).1.assembly := by
  have hends := fs.ends job d
  generalize (fs.run job d).1 = o at hends h ⊢
  generalize (fs.run job d).2 = d' at hends
  cases hends with
  | missing | unreadable | notText | faulty | binaryRefused | debugRefused => cases h
  | written hs _ _ hsame | bothWritten hs _ _ _ hsame => exact ⟨_, hs, hsame⟩

theorem status_eq_zero_iff (t : Log.Threshold) (o : Outcome) :
    (answer t job o).status = 0 ↔ o.failure = none := by
  unfold answer
  cases o.failure <;> simp

theorem reportsOnce (t : Log.Threshold) (job : Job) (d : Disk) :
    fs.ReportsOnce job d (answer t job (fs.run job d).1)
      (told (messages t job (fs.run job d).1)) := by
  have htells := fs.tells t job d
  refine ⟨?_, ?_, ?_, ?_, ?_, ?_, ?_⟩
  · obtain ⟨ws, hws, ⟨hnone, hms⟩ | ⟨hsome, e, he, hms⟩⟩ := shape_of_tells htells
    · exact ⟨ws, hws, .inl ⟨(status_eq_zero_iff t _).2 hnone, hms⟩⟩
    · refine ⟨ws, hws, .inr ⟨?_, e, he, hms⟩⟩
      unfold answer
      rw [Option.isNone_eq_false_iff.2 hsome]
      rfl
  · rw [located_iff_of_tells htells, failure_eq_source_iff]
  · rw [unlocated_iff_of_tells htells]
    simp only [failure_eq_some_iff]
    rfl
  · intro source f hreads hread
    have hfault : Assembler.assemble job.input source {} = .error f {} :=
      Assembler.assemble_eq_error_iff.2 (.inl ⟨hread, rfl⟩)
    rw [run_of_faulty fs hreads hfault, told_of_fault]
    rfl
  · intro source ss f s hreads hread hrun
    obtain ⟨k, hbreaks⟩ := Assembler.executeAll_eq_error_iff.1 hrun
    have hfault := Assembler.assemble_eq_error_iff.2 (.inr ⟨ss, hread, hrun⟩)
    refine ⟨k, hbreaks, ?_⟩
    rw [run_of_faulty fs hreads hfault, told_of_fault,
      diagnostics_of_run hbreaks.before]
  · intro hnot
    rw [status_eq_zero_iff, ← Option.isNone_iff_eq_none] at hnot
    unfold answer
    exact if_neg (by simpa using hnot)
  · intro hstatus hlisting
    have hnone := (status_eq_zero_iff t _).1 hstatus
    obtain ⟨s, hs, hsame⟩ := fs.assembles_of_success hnone
    refine ⟨s, hs, ?_⟩
    rw [← lines_of_sameButLog hsame]
    unfold answer
    rw [hnone, hlisting]
    rfl

/-- A failure without a place is the last thing told. -/
theorem told_of_fails (t : Log.Threshold) {f : Failure} (hother : ∀ g, f ≠ .source g)
    (h : fs.FailsBefore job d f ∨ fs.FailsAfter job d f) :
    ∃ ws : List Diagnostic,
      told (messages t job (fs.run job d).1) = ws.map .note ++ [.failure f] := by
  have htells := fs.tells t job d
  rw [fs.failure_eq_some_iff.2 h] at htells
  generalize told (messages t job (fs.run job d).1) = ms at htells ⊢
  cases htells with
  | located hws => exact absurd rfl (hother _)
  | @unlocated ws _ hws _ => exact ⟨ws, rfl⟩

/-- A failure is told once, with its place if it is a fault in the source, and
    after the warnings about the statements before it.  What is told is
    written as it is worded, save that an error without a place always has its
    first word in bold red. -/
theorem respond_reports (fs : FileSystem) (args : List String) (logName : Option String)
    (d : Disk) (v : Invocation) (hargs : Invocation.read args = .ok v) :
    let r := (fs.respond args logName d).1
    let ms := messages (threshold logName v.verbose) v.job (fs.run v.job d).1
    r.err = String.join (ms.map Message.text) ∧
      fs.ReportsOnce v.job d r (told ms) ∧
      ((∀ m ∈ told ms, m.text = m.plainText) ↔ ¬ fs.FailsUnlocated v.job d) ∧
      ∀ f, (∀ g, f ≠ Failure.source g) →
        fs.FailsBefore v.job d f ∨ fs.FailsAfter v.job d f →
        (∃ ws : List Diagnostic, told ms = ws.map .note ++ [.failure f]) ∧
          (Message.failure f).text =
            "\x1b[31m\x1b[1merror\x1b[39m\x1b[22m: " ++ f.message ++ "\n" := by
  intro r ms
  have hr : r = answer (threshold logName v.verbose) v.job (fs.run v.job d).1 := by
    show (fs.respond args logName d).1 = _
    rw [respond_eq fs hargs]
  have hreports := fs.reportsOnce (threshold logName v.verbose) v.job d
  refine ⟨by rw [hr]; rfl, by rw [hr]; exact hreports, ?_, ?_⟩
  · rw [← hreports.unlocated]
    simp only [Message.text_eq_plainText_iff, not_exists, not_and]
    rfl
  · intro f hother hfails
    exact ⟨fs.told_of_fails _ hother hfails, Message.text_failure f⟩

/-- A source whose second statement fails, after a warning about the first. -/
def failingDisk : Disk where
  tree := ⟨[(["w.s"], .file (encodeText "lri(r0, 300)\njmp(nowhere)\nlri(r0, 400)\n"))]⟩

/-- The warning about the statement before the fault is told, the one about
    the statement after it is not. -/
theorem respond_reports_after_warning :
    Invocation.read ["-d", "w.s"] = .ok ⟨Job.plan "w.s" none false true, false⟩ ∧
      (plain.respond ["-d", "w.s"] none failingDisk).1 =
        ⟨1, "", "w.s:1: warning: 0x12C too big, will truncate\n" ++
          "w.s:2: error: name `nowhere` is not defined\n"⟩ ∧
      plain.ReportsOnce (Job.plan "w.s" none false true) failingDisk
        (plain.respond ["-d", "w.s"] none failingDisk).1
        (told (messages (some .warn) (Job.plan "w.s" none false true)
          (plain.run (Job.plan "w.s" none false true) failingDisk).1)) := by
  have hargs : Invocation.read ["-d", "w.s"] = .ok ⟨Job.plan "w.s" none false true, false⟩ := by
    decide +kernel
  have hreports := respond_reports plain ["-d", "w.s"] none failingDisk _ hargs
  exact ⟨hargs, by decide +kernel, hreports.2.1⟩

/-- What is written for an error without a place, which is not its plain
    words. -/
theorem respond_styles_failure :
    Invocation.read ["x.s"] = .ok ⟨Job.plan "x.s" none false false, false⟩ ∧
      (plain.respond ["x.s"] none {}).1 =
        ⟨1, "", "\x1b[31m\x1b[1merror\x1b[39m\x1b[22m: can't find x.s\n"⟩ ∧
      (plain.respond ["x.s"] none {}).1.err ≠ "error: can't find x.s\n" := by
  decide +kernel

end FileSystem

end OnePass
