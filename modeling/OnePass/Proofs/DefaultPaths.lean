import OnePass.Job
import OnePass.Proofs.Paths

/-! # Default paths

    The binary and the debug file go beside the input, under its stem: their
    paths are the input's path, cut right after the stem, with an extension of
    their own.

    * `Path.withExtension_eq_iff` : when that is so.
    * `Path.withExtension_of_doubleDotted` : what happens otherwise.
    * `Job.plan_beside_input` : the default paths of a job. -/

namespace OnePass

namespace Path

variable {path : String} {directory name trail stem x : List Char}

theorem DoubleDotted.stem_eq (h : DoubleDotted name trail x) (hstem : Stem name stem) :
    stem = ['.'] := by
  have hname : name = ['.'] ++ '.' :: x := h.eq_append
  rw [← hstem.splitExtension_eq, hname,
    splitExtension_append (List.cons_ne_nil _ _) h.dot_not_mem]

/-- The path beside a path is its text up to the stem, a dot and the extension,
    except just if the name is `..x`. -/
theorem withExtension_eq_iff (h : Parts path.toList directory name trail)
    (hstem : Stem name stem) {ext : String} (hext : ext ≠ "") :
    withExtension path ext = String.ofList (directory ++ stem) ++ ("." ++ ext) ↔
      ¬ ∃ x, DoubleDotted name trail x := by
  have htext : (String.ofList (directory ++ stem) ++ ("." ++ ext)).toList =
      directory ++ (stem ++ '.' :: ext.toList) := by
    simp
  unfold withExtension
  rw [← String.toList_inj, htext, String.toList_ofList]
  constructor
  · intro hsame hdotted
    obtain ⟨x, hx⟩ := hdotted
    rw [replaceExtension_of_doubleDotted h hx, hx.stem_eq hstem] at hsame
    -- Two dots are left, and the extension would have to stand behind them.
    have hnil : ext.toList = [] := by simpa using hsame
    exact hext (String.toList_eq_nil_iff.1 hnil)
  · intro hplain
    exact replaceExtension_of_parts h hstem hplain ext.toList

/-- Whatever the extension, the path beside `..x` is the same text. -/
theorem withExtension_of_doubleDotted (h : Parts path.toList directory name trail)
    (hx : DoubleDotted name trail x) (ext : String) :
    withExtension path ext ++ String.ofList x = path ∧
      withExtension path ext = String.ofList (directory ++ ['.', '.']) := by
  have hshort : withExtension path ext = String.ofList (directory ++ ['.', '.']) := by
    unfold withExtension
    rw [replaceExtension_of_doubleDotted h hx]
  refine ⟨?_, hshort⟩
  rw [hshort, ← String.toList_inj, h.eq_append, hx.eq_append, hx.at_end]
  simp

end Path

open OnePass.Path

/-- The default paths of an input with a file name: its text, cut right after
    the stem, and `.o` or `.dbg`.  The exception is just an input that ends in
    a name `..x` with a non-empty `x` without dots; then both paths are the
    text without `x`. -/
theorem Job.plan_beside_input (input : String) (listing : Bool) :
    ((∃ name, fileName? input.toList = some name) ↔
      ∃ directory name trail stem,
        Parts input.toList directory name trail ∧ Stem name stem) ∧
    ∀ directory name trail stem : List Char,
      Parts input.toList directory name trail → Stem name stem →
        ((plan input none true listing).output = String.ofList (directory ++ stem) ++ ".o" ↔
          ¬ ∃ x, DoubleDotted name trail x) ∧
        ((plan input none true listing).debug =
            some (String.ofList (directory ++ stem) ++ ".dbg") ↔
          ¬ ∃ x, DoubleDotted name trail x) ∧
        ∀ x, DoubleDotted name trail x →
          (plan input none true listing).output ++ String.ofList x = input ∧
          ['.', '.'] <:+ (plan input none true listing).output.toList ∧
          (plan input none true listing).debug = some (plan input none true listing).output := by
  have houtput : (plan input none true listing).output = withExtension input "o" := rfl
  have hdebug : (plan input none true listing).debug = some (withExtension input "dbg") := rfl
  rw [houtput, hdebug]
  refine ⟨exists_fileName?_iff, ?_⟩
  intro directory name trail stem hparts hstem
  refine ⟨withExtension_eq_iff hparts hstem (by decide), ?_, ?_⟩
  · rw [Option.some.injEq]
    exact withExtension_eq_iff hparts hstem (by decide)
  · intro x hx
    obtain ⟨hcut, hshort⟩ := withExtension_of_doubleDotted hparts hx "o"
    obtain ⟨_, hshort'⟩ := withExtension_of_doubleDotted hparts hx "dbg"
    refine ⟨hcut, ?_, ?_⟩
    · rw [hshort, String.toList_ofList]
      exact List.suffix_append _ _
    · rw [hshort', hshort]

/-- A hidden file with two dots more, in front of slashes that are shorter than
    its extension; and a file whose name is two dots and a letter. -/
theorem Job.plan_beside_input_dots :
    (Parts "a/.b.c.txt/.".toList "a/".toList ".b.c.txt".toList "/.".toList ∧
      Stem ".b.c.txt".toList ".b.c".toList ∧
      (plan "a/.b.c.txt/." none true false).output = "a/.b.c.o" ∧
      (plan "a/.b.c.txt/." none true false).debug = some "a/.b.c.dbg") ∧
    Parts "../..x".toList "../".toList "..x".toList [] ∧
      Stem "..x".toList ".".toList ∧ DoubleDotted "..x".toList [] "x".toList ∧
      (plan "../..x" none true false).debug = some (plan "../..x" none true false).output := by
  have hparts : Parts "a/.b.c.txt/.".toList "a/".toList ".b.c.txt".toList "/.".toList :=
    ⟨by decide, .inr ⟨['a'], by decide⟩, by decide, by decide, by decide, by decide,
      .slashDot .nil⟩
  have hstem : Stem ".b.c.txt".toList ".b.c".toList :=
    @Stem.cut ".b.c".toList "txt".toList (by decide) (by decide)
  have hplain : ¬ ∃ x, DoubleDotted ".b.c.txt".toList "/.".toList x := by
    intro h
    obtain ⟨x, hx⟩ := h
    cases hx.at_end
  have hparts' : Parts "../..x".toList "../".toList "..x".toList [] :=
    ⟨by decide, .inr ⟨['.', '.'], by decide⟩, by decide, by decide, by decide, by decide, .nil⟩
  have hstem' : Stem "..x".toList ".".toList :=
    @Stem.cut ".".toList "x".toList (by decide) (by decide)
  have hdotted : DoubleDotted "..x".toList [] "x".toList :=
    ⟨by decide, by decide, by decide, rfl⟩
  obtain ⟨houtput, hdebug, _⟩ :=
    (plan_beside_input "a/.b.c.txt/." false).2 _ _ _ _ hparts hstem
  obtain ⟨_, _, hboth⟩ := (plan_beside_input "../..x" false).2 _ _ _ _ hparts' hstem'
  exact ⟨⟨hparts, hstem, houtput.2 hplain, hdebug.2 hplain⟩, hparts', hstem', hdotted,
    (hboth _ hdotted).2.2⟩

end OnePass
