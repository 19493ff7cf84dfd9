import OnePass.Job
import OnePass.Proofs.Disks
import OnePass.Proofs.Steps

/-! # How jobs end

    Everything that a job can come to, said once: there are eight ways to
    end, three of them before the source is known.

    * `FileSystem` : disks to which access may be refused.
    * `FileSystem.run` : what a job comes to, and the disk that it leaves.
    * `FileSystem.run_of_missing` and the lemmas after it : one for each way to
      end, from what happens on that way.
    * `FileSystem.ends` : a job ends in these ways and no other (`Ends`). -/

namespace OnePass

/-! ## File systems -/

/-- Access to disks by the usual rules.  Reading and writing may be refused
    for reasons that a disk does not show, such as a lack of permissions, but
    what is granted is what the disk itself would do. -/
structure FileSystem where
  read : Disk → String → Except FileFault (List UInt8)
  write : Disk → String → List UInt8 → Except FileFault Disk
  read_granted : ∀ {d path content}, read d path = .ok content → d.read path = .ok content
  write_granted : ∀ {d path content d'},
    write d path content = .ok d' → d.write path content = .ok d'

namespace FileSystem

/-- A refused change leaves the disk alone, and a file that is there can
    always be removed. -/
@[reducible] def access (fs : FileSystem) : FileAccess (StateM Disk) where
  isFile path := fun d => (d.isFile path, d)
  read path := fun d => (fs.read d path, d)
  write path content := Disk.attempt (fs.write · path content)
  remove path := Disk.attempt (·.remove path)

/-- The file system that refuses nothing of its own accord. -/
def plain : FileSystem where
  read := Disk.read
  write := Disk.write
  read_granted := id
  write_granted := id

variable (fs : FileSystem) {job : Job} {d d' : Disk}

theorem isFile_run (path : String) (d : Disk) :
    (fs.access.isFile path).run d = (d.isFile path, d) :=
  rfl

theorem read_run (path : String) (d : Disk) :
    (fs.access.read path).run d = (fs.read d path, d) :=
  rfl

theorem write_of_granted {path : String} {content : List UInt8}
    (h : fs.write d path content = .ok d') :
    (fs.access.write path content).run d = (.ok (), d') :=
  Disk.attempt_of_ok h

theorem write_of_refused {path : String} {content : List UInt8} {e : FileFault}
    (h : fs.write d path content = .error e) :
    (fs.access.write path content).run d = (.error e, d) :=
  Disk.attempt_of_error h

end FileSystem

/-! ## Running -/

theorem bind_run {α β : Type} {x : StateM Disk α} {a : α} {d d' : Disk}
    (h : x.run d = (a, d')) (f : α → StateM Disk β) : (x >>= f).run d = (f a).run d' := by
  rw [StateT.run_bind, h]
  rfl

/-- `s'` differs from `s` in its log only. -/
structure Assembly.SameButLog (s s' : Assembly) : Prop where
  image_eq : s'.image = s.image
  symbols_eq : s'.symbols = s.symbols
  diagnostics_eq : s'.journal.diagnostics = s.journal.diagnostics

theorem Assembly.sameButLog_log (s : Assembly) (level : Log.Level) (message : String) :
    s.SameButLog (s.log level message) :=
  ⟨rfl, rfl, Journal.diagnostics_log ..⟩

theorem Assembly.SameButLog.trans {s s' s'' : Assembly} (h : s.SameButLog s')
    (h' : s'.SameButLog s'') : s.SameButLog s'' :=
  ⟨h'.image_eq.trans h.image_eq, h'.symbols_eq.trans h.symbols_eq,
    h'.diagnostics_eq.trans h.diagnostics_eq⟩

namespace FileSystem

variable (fs : FileSystem) {job : Job} {d d' : Disk}

/-- What a job comes to, and the disk that it leaves. -/
def run (fs : FileSystem) (job : Job) (d : Disk) : Outcome × Disk :=
  (@Job.run (StateM Disk) _ fs.access job).run d

/-! ### Reading and assembling -/

/-- The job gets to see its source. -/
def Reads (fs : FileSystem) (job : Job) (d : Disk) (source : String) : Prop :=
  d.isFile job.input = true ∧
    ∃ bs, fs.read d job.input = .ok bs ∧ decodeText? bs = some source

/-- The source of the job assembles. -/
def Assembles (fs : FileSystem) (job : Job) (d : Disk) (s : Assembly) : Prop :=
  ∃ source, fs.Reads job d source ∧ Assembler.assemble job.input source {} = .ok () s

theorem run_of_missing (h : d.isFile job.input = false) :
    fs.run job d = ({ failure := some (.missingInput job.input) }, d) := by
  unfold run Job.run
  rw [bind_run (fs.isFile_run job.input d), h, if_neg (by decide)]
  rfl

theorem run_of_unreadable {e : FileFault} (h : d.isFile job.input = true)
    (hread : fs.read d job.input = .error e) :
    fs.run job d = ({ failure := some (.unreadable job.input e) }, d) := by
  unfold run Job.run
  rw [bind_run (fs.isFile_run job.input d), h, if_pos rfl,
    bind_run (fs.read_run job.input d), hread]
  rfl

theorem run_of_notText {bs : List UInt8} (h : d.isFile job.input = true)
    (hread : fs.read d job.input = .ok bs) (htext : decodeText? bs = none) :
    fs.run job d = ({ failure := some (.unreadable job.input .notText) }, d) := by
  unfold run Job.run
  rw [bind_run (fs.isFile_run job.input d), h, if_pos rfl,
    bind_run (fs.read_run job.input d), hread]
  dsimp only
  rw [htext]
  rfl

theorem run_of_reads {source : String} (h : fs.Reads job d source) :
    fs.run job d = (@Job.process (StateM Disk) _ fs.access job source).run d := by
  obtain ⟨hfile, bs, hread, htext⟩ := h
  unfold run Job.run
  rw [bind_run (fs.isFile_run job.input d), hfile, if_pos rfl,
    bind_run (fs.read_run job.input d), hread]
  dsimp only
  rw [htext]

theorem run_of_faulty {source : String} {f : SourceFault} {s : Assembly}
    (h : fs.Reads job d source) (hf : Assembler.assemble job.input source {} = .error f s) :
    fs.run job d = (⟨s.reportFault f, some (.source f)⟩, d) := by
  rw [run_of_reads fs h]
  unfold Job.process
  rw [hf]
  rfl

theorem run_of_assembles {s : Assembly} (h : fs.Assembles job d s) :
    fs.run job d = (@Job.deliver (StateM Disk) _ fs.access job s).run d := by
  obtain ⟨source, hreads, hs⟩ := h
  rw [run_of_reads fs hreads]
  unfold Job.process
  rw [hs]

/-! ### Delivering -/

theorem run_of_binary_refused {s : Assembly} {e : FileFault} (h : fs.Assembles job d s)
    (hbinary : fs.write d job.output s.image.bytes = .error e) :
    fs.run job d = (⟨s, some (.unwritable job.output e)⟩, d) := by
  rw [run_of_assembles fs h]
  unfold Job.deliver
  rw [bind_run (fs.write_of_refused hbinary)]
  rfl

theorem run_of_written {s : Assembly} (h : fs.Assembles job d s)
    (hbinary : fs.write d job.output s.image.bytes = .ok d') (hdebug : job.debug = none) :
    ∃ s', s.SameButLog s' ∧ fs.run job d = (⟨s', none⟩, d') := by
  rw [run_of_assembles fs h]
  unfold Job.deliver
  rw [bind_run (fs.write_of_granted hbinary), hdebug]
  exact ⟨_, s.sameButLog_log .info _, rfl⟩

/-- The debug file is written in the disk that has the binary already. -/
theorem run_of_binary {s : Assembly} {path : String} (h : fs.Assembles job d s)
    (hbinary : fs.write d job.output s.image.bytes = .ok d') (hdebug : job.debug = some path) :
    ∃ s', s.SameButLog s' ∧
      fs.run job d = (@Job.deliverDebug (StateM Disk) _ fs.access job path s').run d' := by
  rw [run_of_assembles fs h]
  unfold Job.deliver
  rw [bind_run (fs.write_of_granted hbinary), hdebug]
  exact ⟨_, s.sameButLog_log .info _, rfl⟩

theorem run_of_both {s : Assembly} {path : String} {d'' : Disk} (h : fs.Assembles job d s)
    (hbinary : fs.write d job.output s.image.bytes = .ok d') (hdebug : job.debug = some path)
    (hwrite : fs.write d' path (encodeText s.image.debugText) = .ok d'') :
    ∃ s', s.SameButLog s' ∧ fs.run job d = (⟨s', none⟩, d'') := by
  obtain ⟨s', hs', hrun⟩ := run_of_binary fs h hbinary hdebug
  rw [← hs'.image_eq] at hwrite
  rw [hrun]
  unfold Job.deliverDebug
  rw [bind_run (fs.write_of_granted hwrite)]
  exact ⟨_, hs'.trans (s'.sameButLog_log .info _), rfl⟩

/-- Without its debug file the binary goes as well. -/
theorem run_of_debug_refused {s : Assembly} {path : String} {e : FileFault}
    (h : fs.Assembles job d s) (hbinary : fs.write d job.output s.image.bytes = .ok d')
    (hdebug : job.debug = some path)
    (hwrite : fs.write d' path (encodeText s.image.debugText) = .error e) :
    ∃ s' l, s.SameButLog s' ∧ l ≠ [] ∧ d.locate job.output = .ok l ∧
      fs.run job d = (⟨s', some (.unwritable path e)⟩, { d with tree := d.tree.erase l }) := by
  obtain ⟨s', hs', hrun⟩ := run_of_binary fs h hbinary hdebug
  obtain ⟨l, hroot, hlocate, hremove⟩ := Disk.remove_of_write (fs.write_granted hbinary)
  have hremoved : (fs.access.remove job.output).run d' =
      (.ok (), { d with tree := d.tree.erase l }) :=
    Disk.attempt_of_ok hremove
  refine ⟨s', l, hs', hroot, hlocate, ?_⟩
  -- The refused write has left the binary where the output path finds it.
  rw [← hs'.image_eq] at hwrite
  rw [hrun]
  unfold Job.deliverDebug
  rw [bind_run (fs.write_of_refused hwrite), bind_run hremoved]
  rfl

/-! ## The ways to end -/

/-- `fs.Ends job d o d'`: the job comes to `o` and leaves the disk `d'`. -/
inductive Ends (fs : FileSystem) (job : Job) (d : Disk) : Outcome → Disk → Prop
  | missing :
      d.isFile job.input = false → Ends fs job d ⟨{}, some (.missingInput job.input)⟩ d
  | unreadable {e : FileFault} :
      d.isFile job.input = true → fs.read d job.input = .error e →
      Ends fs job d ⟨{}, some (.unreadable job.input e)⟩ d
  | notText {bs : List UInt8} :
      d.isFile job.input = true → fs.read d job.input = .ok bs → decodeText? bs = none →
      Ends fs job d ⟨{}, some (.unreadable job.input .notText)⟩ d
  /-- The source is refused, and the fault is reported. -/
  | faulty {source : String} {f : SourceFault} {s : Assembly} :
      fs.Reads job d source → Assembler.assemble job.input source {} = .error f s →
      Ends fs job d ⟨s.reportFault f, some (.source f)⟩ d
  | binaryRefused {s : Assembly} {e : FileFault} :
      fs.Assembles job d s → fs.write d job.output s.image.bytes = .error e →
      Ends fs job d ⟨s, some (.unwritable job.output e)⟩ d
  /-- The binary is all that was asked for. -/
  | written {s s' : Assembly} {d' : Disk} :
      fs.Assembles job d s → fs.write d job.output s.image.bytes = .ok d' → job.debug = none →
      s.SameButLog s' → Ends fs job d ⟨s', none⟩ d'
  | bothWritten {s s' : Assembly} {d' d'' : Disk} {path : String} :
      fs.Assembles job d s → fs.write d job.output s.image.bytes = .ok d' →
      job.debug = some path → fs.write d' path (encodeText s.image.debugText) = .ok d'' →
      s.SameButLog s' → Ends fs job d ⟨s', none⟩ d''
  /-- The binary is taken back from the place where it was put. -/
  | debugRefused {s s' : Assembly} {d' : Disk} {path : String} {e : FileFault} {l : Location} :
      fs.Assembles job d s → fs.write d job.output s.image.bytes = .ok d' →
      job.debug = some path → fs.write d' path (encodeText s.image.debugText) = .error e →
      s.SameButLog s' → d.locate job.output = .ok l →
      Ends fs job d ⟨s', some (.unwritable path e)⟩ { d with tree := d.tree.erase l }

theorem ends_of_assembles {s : Assembly} (hs : fs.Assembles job d s) :
    fs.Ends job d (fs.run job d).1 (fs.run job d).2 := by
  cases hbinary : fs.write d job.output s.image.bytes with
  | error e =>
    rw [run_of_binary_refused fs hs hbinary]
    exact .binaryRefused hs hbinary
  | ok d' =>
    cases hdebug : job.debug with
    | none =>
      obtain ⟨s', hs', hrun⟩ := run_of_written fs hs hbinary hdebug
      rw [hrun]
      exact .written hs hbinary hdebug hs'
    | some path =>
      cases hwrite : fs.write d' path (encodeText s.image.debugText) with
      | error e =>
        obtain ⟨s', l, hs', _, hlocate, hrun⟩ :=
          run_of_debug_refused fs hs hbinary hdebug hwrite
        rw [hrun]
        exact .debugRefused hs hbinary hdebug hwrite hs' hlocate
      | ok d'' =>
        obtain ⟨s', hs', hrun⟩ := run_of_both fs hs hbinary hdebug hwrite
        rw [hrun]
        exact .bothWritten hs hbinary hdebug hwrite hs'

theorem ends_of_reads {source : String} (hreads : fs.Reads job d source) :
    fs.Ends job d (fs.run job d).1 (fs.run job d).2 := by
  cases hs : Assembler.assemble job.input source {} with
  | error f s =>
    rw [run_of_faulty fs hreads hs]
    exact .faulty hreads hs
  | ok _ s => exact ends_of_assembles fs ⟨source, hreads, hs⟩

/-- A job ends in one of these ways: every step that does not end it leads on
    to the next one. -/
theorem ends (job : Job) (d : Disk) : fs.Ends job d (fs.run job d).1 (fs.run job d).2 := by
  by_cases hfile : d.isFile job.input = true
  · cases hread : fs.read d job.input with
    | error e =>
      rw [run_of_unreadable fs hfile hread]
      exact .unreadable hfile hread
    | ok bs =>
      cases htext : decodeText? bs with
      | none =>
        rw [run_of_notText fs hfile hread htext]
        exact .notText hfile hread htext
      | some source => exact ends_of_reads fs ⟨hfile, bs, hread, htext⟩
  · have hmissing := Bool.eq_false_iff.2 hfile
    rw [run_of_missing fs hmissing]
    exact .missing hmissing

end FileSystem

end OnePass
