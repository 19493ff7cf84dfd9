import OnePass.Proofs.Disks
import OnePass.Proofs.Paths

/-! # Paths beside a path

    Replacing the extension of a path changes its name only: the new path
    leads into the same directory.  So it leads to the same file just if the
    extension is the one that was there already.

    * `Disk.locate_of_splits` : from the place of the directory part to the
      name.
    * `Disk.meet_withExtension_iff` : when the new path leads to the old file.
    * `Disk.not_meet_withExtension` : two extensions lead to two places. -/

namespace OnePass

namespace Disk

open OnePass.Path

/-- The place of a directory part. -/
def enterPart (d : Disk) (directory : List Char) : Except FileFault Location :=
  d.tree.enter (if directory.head? = some '/' then [] else d.workingDirectory)
    ((Text.pieces '/' directory).dropLast.map String.ofList)

theorem pathNames_of_splits {path : String} {directory name : List Char}
    (h : Splits path.toList directory name) :
    pathNames path =
      (Text.pieces '/' directory).dropLast.map String.ofList ++ [String.ofList name] := by
  unfold pathNames
  rw [pieces_of_splits h, List.map_append]
  rfl

theorem head?_of_splits {cs directory name : List Char} (h : Splits cs directory name) :
    cs.head? = some '/' ↔ directory.head? = some '/' := by
  obtain ⟨rfl, hname, rfl | ⟨front, rfl⟩⟩ := h
  · cases name with
    | nil => simp
    | cons c name =>
      have hc : c ≠ '/' := by
        rintro rfl
        simp at hname
      simp [hc]
  · cases front <;> simp

/-- The path leads from the place of its directory part to its name. -/
theorem locate_of_splits {d : Disk} {path : String} {directory name : List Char}
    (h : Splits path.toList directory name) {l : Location} :
    d.locate path = .ok l ↔
      path ≠ "" ∧ ∃ place, d.enterPart directory = .ok place ∧
        place.step (String.ofList name) = l := by
  have hstart : d.start path = if directory.head? = some '/' then [] else d.workingDirectory := by
    unfold start
    simp only [head?_of_splits h]
  rw [locate_eq_ok_iff, pathNames_of_splits h, List.dropLast_concat, List.getLastD_concat, hstart]
  rfl

/-- A path that leads to a file ends in a name. -/
theorem name_of_read {d : Disk} {path : String} {directory name : List Char}
    (h : Splits path.toList directory name) {content : List UInt8}
    (hread : d.read path = .ok content) : name ≠ [] ∧ name ≠ ['.'] := by
  obtain ⟨l, hlocate, hnode⟩ := read_eq_ok_iff.1 hread
  obtain ⟨_, place, hplace, hstep⟩ := (locate_of_splits h).1 hlocate
  have hdirectory := FileTree.node?_of_enter hplace
  -- Otherwise the path leads to the directory itself.
  constructor
  · rintro rfl
    have hstay : l = place := by rw [← hstep]; rfl
    rw [hstay, hdirectory] at hnode
    cases hnode
  · rintro rfl
    have hstay : l = place := by rw [← hstep]; rfl
    rw [hstay, hdirectory] at hnode
    cases hnode

/-- Two names in one directory. -/
theorem meet_iff_of_splits {d : Disk} {p q : String} {directory name name' : List Char}
    (hp : Splits p.toList directory name) (hq : Splits q.toList directory name')
    (hname : Location.IsPlain (String.ofList name))
    (hname' : Location.IsPlain (String.ofList name')) {place : Location}
    (hplace : d.enterPart directory = .ok place) : d.Meet p q ↔ name = name' := by
  have hnonempty : ∀ {path : String} {n : List Char}, Splits path.toList directory n →
      Location.IsPlain (String.ofList n) → path ≠ "" := by
    rintro path n hpath hn rfl
    have hnil := hpath.eq_append
    have hn' : n = [] := (List.append_eq_nil_iff.1 hnil.symm).2
    exact hn.1 (by rw [hn'])
  have hlocate : ∀ {path : String} {n : List Char}, Splits path.toList directory n →
      Location.IsPlain (String.ofList n) → d.locate path = .ok (place ++ [String.ofList n]) := by
    intro path n hpath hn
    exact (locate_of_splits hpath).2
      ⟨hnonempty hpath hn, place, hplace, Location.step_of_plain place hn⟩
  unfold Meet
  rw [hlocate hp hname, hlocate hq hname']
  constructor
  · rintro ⟨l, hl, hl'⟩
    have hsame : place ++ [String.ofList name] = place ++ [String.ofList name'] :=
      (Except.ok.inj hl).trans (Except.ok.inj hl').symm
    exact String.ofList_inj.1 (by simpa using hsame)
  · rintro rfl
    exact ⟨_, rfl, rfl⟩

theorem getLastD_pathNames {path : String} {directory name : List Char}
    (h : Splits path.toList directory name) :
    (pathNames path).getLastD "" = String.ofList name := by
  rw [pathNames_of_splits h, List.getLastD_concat]

section

variable {d : Disk} {input : String} {content : List UInt8}

/-- Where a file can be written at all, the path with another extension stands
    beside the path of the file. -/
theorem splits_withExtension {directory name : List Char}
    (h : Splits input.toList directory name) (hread : d.read input = .ok content) {ext : String}
    (hext : '/' ∉ ext.toList)
    (hplain : Location.IsPlain ((pathNames (withExtension input ext)).getLastD "")) :
    name ≠ ['.', '.'] ∧ Splits (withExtension input ext).toList directory
      ((splitExtension name).1 ++ '.' :: ext.toList) := by
  obtain ⟨hempty, hdot⟩ := name_of_read h hread
  have htext : (withExtension input ext).toList = replaceExtension input.toList ext.toList :=
    String.toList_ofList
  rcases replaceExtension_of_splits h hempty hdot ext.toList with ⟨hdots, hbeside⟩ | habove
  · refine ⟨hdots, htext.trans hbeside, ?_, h.closed⟩
    have hstem : '/' ∉ (splitExtension name).1 := fun hmem => h.slash_not_mem (mem_of_mem_stem hmem)
    simp [hstem, hext]
  · have hsplits : Splits (withExtension input ext).toList directory ['.', '.'] :=
      ⟨htext.trans habove, by decide, h.closed⟩
    rw [getLastD_pathNames hsplits] at hplain
    exact absurd rfl hplain.2.2

theorem exists_enterPart {directory name : List Char} (h : Splits input.toList directory name)
    (hread : d.read input = .ok content) : ∃ place, d.enterPart directory = .ok place := by
  obtain ⟨l, hlocate, _⟩ := read_eq_ok_iff.1 hread
  obtain ⟨_, place, hplace, _⟩ := (locate_of_splits h).1 hlocate
  exact ⟨place, hplace⟩

/-- The path with another extension leads to the file itself just if the file
    has that extension. -/
theorem meet_withExtension_iff (hread : d.read input = .ok content) {ext : String}
    (hext : '/' ∉ ext.toList)
    (hplain : Location.IsPlain ((pathNames (withExtension input ext)).getLastD "")) :
    d.Meet (withExtension input ext) input ↔ extension? input.toList = some ext.toList := by
  obtain ⟨directory, name, h⟩ := exists_splits input.toList
  obtain ⟨hempty, hdot⟩ := name_of_read h hread
  obtain ⟨hdots, hbeside⟩ := splits_withExtension h hread hext hplain
  obtain ⟨place, hplace⟩ := exists_enterPart h hread
  have hname : Location.IsPlain (String.ofList name) := by
    refine ⟨?_, ?_, ?_⟩ <;> intro heq
    · exact hempty (String.ofList_inj.1 heq)
    · exact hdot (String.ofList_inj.1 heq)
    · exact hdots (String.ofList_inj.1 heq)
  rw [getLastD_pathNames hbeside] at hplain
  rw [meet_iff_of_splits hbeside h hplain hname hplace,
    (h.parts hempty hdot hdots).extension?_eq, eq_comm, eq_stem_append_iff]

/-- Paths with different extensions lead to different places. -/
theorem not_meet_withExtension (hread : d.read input = .ok content) {ext ext' : String}
    (hext : '/' ∉ ext.toList) (hext' : '/' ∉ ext'.toList) (hne : ext ≠ ext')
    (hplain : Location.IsPlain ((pathNames (withExtension input ext)).getLastD ""))
    (hplain' : Location.IsPlain ((pathNames (withExtension input ext')).getLastD "")) :
    ¬ d.Meet (withExtension input ext) (withExtension input ext') := by
  obtain ⟨directory, name, h⟩ := exists_splits input.toList
  obtain ⟨_, hbeside⟩ := splits_withExtension h hread hext hplain
  obtain ⟨_, hbeside'⟩ := splits_withExtension h hread hext' hplain'
  obtain ⟨place, hplace⟩ := exists_enterPart h hread
  rw [getLastD_pathNames hbeside] at hplain
  rw [getLastD_pathNames hbeside'] at hplain'
  rw [meet_iff_of_splits hbeside hbeside' hplain hplain' hplace]
  intro hsame
  exact hne (String.toList_inj.1 (by simpa using hsame))

end

end Disk

end OnePass
