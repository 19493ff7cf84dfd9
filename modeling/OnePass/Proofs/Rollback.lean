import OnePass.Proofs.Outcomes

/-! # A failing job leaves the disk as it was

    A job writes at most two files, the binary first.  Whatever stops it
    before the binary is written has changed nothing; if the debug file is
    refused, the binary is taken back.

    * `FileSystem.after` : how a job ends, and the disk that it leaves.
    * `FileSystem.FailsBefore`, `FileSystem.FailsAfter` : what goes wrong
      before and after the binary is written.
    * `FileSystem.after_failure` : what a failing job leaves behind. -/

namespace OnePass

/-! ## How an action ends -/

/-- The failure that an action reports and the disk that it leaves. -/
def ending (x : StateM Disk Outcome) (d : Disk) : Option Failure × Disk :=
  ((x.run d).1.failure, (x.run d).2)

namespace FileSystem

variable (fs : FileSystem) {job : Job} {d d' : Disk}

/-- How a job ends, and the disk that it leaves. -/
def after (fs : FileSystem) (job : Job) (d : Disk) : Option Failure × Disk :=
  ending (@Job.run (StateM Disk) _ fs.access job) d

/-- Without refusals a job has the access that disks have. -/
theorem after_plain (job : Job) (d : Disk) : plain.after job d = ending job.run d :=
  rfl

theorem after_eq_run (job : Job) (d : Disk) :
    fs.after job d = ((fs.run job d).1.failure, (fs.run job d).2) :=
  rfl

theorem after_of_missing (h : d.isFile job.input = false) :
    fs.after job d = (some (.missingInput job.input), d) := by
  rw [after_eq_run, run_of_missing fs h]

theorem after_of_unreadable {e : FileFault} (h : d.isFile job.input = true)
    (hread : fs.read d job.input = .error e) :
    fs.after job d = (some (.unreadable job.input e), d) := by
  rw [after_eq_run, run_of_unreadable fs h hread]

theorem after_of_notText {bs : List UInt8} (h : d.isFile job.input = true)
    (hread : fs.read d job.input = .ok bs) (htext : decodeText? bs = none) :
    fs.after job d = (some (.unreadable job.input .notText), d) := by
  rw [after_eq_run, run_of_notText fs h hread htext]

theorem after_of_faulty {source : String} {f : SourceFault} {s : Assembly}
    (h : fs.Reads job d source) (hf : Assembler.assemble job.input source {} = .error f s) :
    fs.after job d = (some (.source f), d) := by
  rw [after_eq_run, run_of_faulty fs h hf]

theorem after_of_binary_refused {s : Assembly} {e : FileFault} (h : fs.Assembles job d s)
    (hbinary : fs.write d job.output s.image.bytes = .error e) :
    fs.after job d = (some (.unwritable job.output e), d) := by
  rw [after_eq_run, run_of_binary_refused fs h hbinary]

theorem after_of_debug_refused {s : Assembly} {path : String} {e : FileFault}
    (h : fs.Assembles job d s) (hbinary : fs.write d job.output s.image.bytes = .ok d')
    (hdebug : job.debug = some path)
    (hwrite : fs.write d' path (encodeText s.image.debugText) = .error e) :
    ∃ l, l ≠ [] ∧ d.locate job.output = .ok l ∧
      fs.after job d = (some (.unwritable path e), { d with tree := d.tree.erase l }) := by
  obtain ⟨_, l, _, hroot, hlocate, hrun⟩ := run_of_debug_refused fs h hbinary hdebug hwrite
  exact ⟨l, hroot, hlocate, by rw [after_eq_run, hrun]⟩

/-! ## Failing -/

/-- What goes wrong before anything is written. -/
inductive FailsBefore (fs : FileSystem) (job : Job) (d : Disk) : Failure → Prop
  | missing : d.isFile job.input = false → FailsBefore fs job d (.missingInput job.input)
  | unreadable {e : FileFault} :
      d.isFile job.input = true → fs.read d job.input = .error e →
      FailsBefore fs job d (.unreadable job.input e)
  | notText {bs : List UInt8} :
      d.isFile job.input = true → fs.read d job.input = .ok bs → decodeText? bs = none →
      FailsBefore fs job d (.unreadable job.input .notText)
  | faulty {source : String} {f : SourceFault} {s : Assembly} :
      fs.Reads job d source → Assembler.assemble job.input source {} = .error f s →
      FailsBefore fs job d (.source f)
  | binary {s : Assembly} {e : FileFault} :
      fs.Assembles job d s → fs.write d job.output s.image.bytes = .error e →
      FailsBefore fs job d (.unwritable job.output e)

/-- What goes wrong once the binary is written. -/
inductive FailsAfter (fs : FileSystem) (job : Job) (d : Disk) : Failure → Prop
  | debug {s : Assembly} {d' : Disk} {path : String} {e : FileFault} :
      fs.Assembles job d s → fs.write d job.output s.image.bytes = .ok d' →
      job.debug = some path → fs.write d' path (encodeText s.image.debugText) = .error e →
      FailsAfter fs job d (.unwritable path e)

/-- There is no other way to fail. -/
theorem fails_of_after {f : Failure} (h : (fs.after job d).1 = some f) :
    fs.FailsBefore job d f ∨ fs.FailsAfter job d f := by
  have hends := fs.ends job d
  rw [after_eq_run] at h
  generalize (fs.run job d).1 = o at hends h
  generalize (fs.run job d).2 = d' at hends
  cases hends with
  | missing hfile =>
    cases h
    exact .inl (.missing hfile)
  | unreadable hfile hread =>
    cases h
    exact .inl (.unreadable hfile hread)
  | notText hfile hread htext =>
    cases h
    exact .inl (.notText hfile hread htext)
  | faulty hreads hfault =>
    cases h
    exact .inl (.faulty hreads hfault)
  | binaryRefused hs hbinary =>
    cases h
    exact .inl (.binary hs hbinary)
  | written => cases h
  | bothWritten => cases h
  | debugRefused hs hbinary hdebug hwrite =>
    cases h
    exact .inr (.debug hs hbinary hdebug hwrite)

/-- These are the failures that a job ends with. -/
theorem failure_eq_some_iff {f : Failure} :
    (fs.run job d).1.failure = some f ↔ fs.FailsBefore job d f ∨ fs.FailsAfter job d f := by
  constructor
  · exact fun h => fails_of_after fs h
  · rintro (h | h)
    · cases h with
      | missing hfile => rw [run_of_missing fs hfile]
      | unreadable hfile hread => rw [run_of_unreadable fs hfile hread]
      | notText hfile hread htext => rw [run_of_notText fs hfile hread htext]
      | faulty hreads hfault => rw [run_of_faulty fs hreads hfault]
      | binary hs hbinary => rw [run_of_binary_refused fs hs hbinary]
    · cases h with
      | debug hs hbinary hdebug hwrite =>
        obtain ⟨_, _, _, _, _, hrun⟩ := run_of_debug_refused fs hs hbinary hdebug hwrite
        rw [hrun]

/-- A job that fails before its binary is written leaves the disk exactly as
    it was.  A job that fails because of its debug file takes away the file at
    its output path, whatever was there before, and leaves everything else as
    it was.  A job fails for these reasons only. -/
theorem after_failure (fs : FileSystem) (job : Job) (d : Disk) :
    (∀ f, fs.FailsBefore job d f → fs.after job d = (some f, d)) ∧
    (∀ f, fs.FailsAfter job d f →
      ∃ l, d.locate job.output = .ok l ∧
        fs.after job d = (some f, { d with tree := d.tree.erase l }) ∧
        ∀ k, (d.tree.erase l).node? k = if k = l then none else d.tree.node? k) ∧
    ∀ f, (fs.after job d).1 = some f → fs.FailsBefore job d f ∨ fs.FailsAfter job d f := by
  refine ⟨?_, ?_, fun f hf => fails_of_after fs hf⟩
  · intro f h
    cases h with
    | missing hfile => exact after_of_missing fs hfile
    | unreadable hfile hread => exact after_of_unreadable fs hfile hread
    | notText hfile hread htext => exact after_of_notText fs hfile hread htext
    | faulty hreads hfault => exact after_of_faulty fs hreads hfault
    | binary hs hbinary => exact after_of_binary_refused fs hs hbinary
  · intro f h
    cases h with
    | debug hs hbinary hdebug hwrite =>
      obtain ⟨l, hroot, hlocate, hafter⟩ := after_of_debug_refused fs hs hbinary hdebug hwrite
      exact ⟨l, hlocate, hafter, fun k => d.tree.node?_erase hroot k⟩

/-- A binary that goes where the source was, and a debug file that would have
    to go below it. -/
def entangledJob : Job :=
  ⟨"a.s", "./a.s", some "a.s/x", false⟩

def entangledDisk : Disk where
  tree := ⟨[(["a.s"], .file (encodeText "jmp(1)")), (["d"], .directory)]⟩

/-- The source is lost with the binary that replaced it, but kept if the
    binary cannot be written. -/
theorem after_failure_entangled :
    (plain.FailsAfter entangledJob entangledDisk (.unwritable "a.s/x" .notDirectory) ∧
      ending entangledJob.run entangledDisk =
        (some (.unwritable "a.s/x" .notDirectory), { tree := ⟨[(["d"], .directory)]⟩ })) ∧
    (plain.FailsBefore { entangledJob with output := "d" } entangledDisk
        (.unwritable "d" .isDirectory) ∧
      ending (Job.run { entangledJob with output := "d" }) entangledDisk =
        (some (.unwritable "d" .isDirectory), entangledDisk)) := by
  have houtcome : Assembler.value? (Assembler.assemble "a.s" "jmp(1)" {}) = some () := by
    decide +kernel
  obtain ⟨s, hs⟩ := Assembler.exists_of_value? houtcome
  have hfile : entangledDisk.isFile "a.s" = true := by decide +kernel
  have hread : plain.read entangledDisk "a.s" = .ok (encodeText "jmp(1)") := rfl
  have htext : decodeText? (encodeText "jmp(1)") = some "jmp(1)" := by decide +kernel
  constructor
  · have hfails : plain.FailsAfter entangledJob entangledDisk
        (.unwritable "a.s/x" .notDirectory) :=
      .debug ⟨_, ⟨hfile, _, hread, htext⟩, hs⟩ rfl rfl rfl
    obtain ⟨l, hlocate, hafter, _⟩ :=
      (after_failure plain entangledJob entangledDisk).2.1 _ hfails
    cases hlocate
    rw [after_plain] at hafter
    exact ⟨hfails, hafter⟩
  · have hfails : plain.FailsBefore { entangledJob with output := "d" } entangledDisk
        (.unwritable "d" .isDirectory) :=
      .binary ⟨_, ⟨hfile, _, hread, htext⟩, hs⟩ rfl
    have hafter := (after_failure plain { entangledJob with output := "d" } entangledDisk).1 _ hfails
    rw [after_plain] at hafter
    exact ⟨hfails, hafter⟩

end FileSystem

end OnePass
