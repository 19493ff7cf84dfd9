import Mathlib.Data.List.SplitBy
import OnePass.Proofs.Atomicity
import OnePass.Proofs.History
import OnePass.Proofs.PrintedRows
import OnePass.Proofs.Relocation

/-! # Listings of a session

    A listing goes through the image once, with one entry of the image and one
    address at a time.  What makes it complete is that no label of a session
    points beyond the image: then each label is shown at one of the addresses
    that the listing passes, and at no other.

    * `Session.labelsWithin_after`, `Session.nodup_scope_after` : what every
      session keeps of its labels.
    * `Session.Begins`, `Session.scope_prefix` : the labels stand in the order
      in which the session came to declare them.
    * `Listing.fileRuns`, `Listing.runLines` : the image cut where the file
      changes, and the lines of one run.
    * `Listing.ShowsAll` : what the text of a listing says, and where.
    * `Listing.shows_session` : this is so after any sequence of calls. -/

namespace OnePass

open Assembler

/-! ## Labels in a session -/

namespace Session

variable {calls : List Call}

/-- Every label of a session that does not start over points into the image or
    right behind it. -/
theorem labelsWithin_after (h : Call.reset ∉ calls) : LabelsWithin (after calls) := by
  apply after_invariant labelsWithin_step
  · intro l hl
    cases hl
  · intro hreset
    exact absurd hreset h
  · intro s j hs
    exact hs

theorem nodup_scope_step {st : Statement} {s s' : Assembly} (h : s.symbols.scope.Nodup)
    (hstep : Executes s st s') : s'.symbols.scope.Nodup := by
  cases hstep with
  | operation hbuilt => exact h
  | label hfree => exact Symbols.nodup_scope_bind h

theorem nodup_scope_after (calls : List Call) : (after calls).symbols.scope.Nodup := by
  apply after_invariant (P := fun s => s.symbols.scope.Nodup) nodup_scope_step
  · exact List.nodup_nil
  · intro _ s hs
    exact hs
  · intro s j hs
    exact hs

/-- `Begins before calls`: the session `before` is `calls` broken off, between
    two calls or within a run. -/
inductive Begins : List Call → List Call → Prop
  | between (before rest : List Call) : Begins before (before ++ rest)
  | within (before rest : List Call) (ss more : List Statement) :
      Begins (before ++ [.run ss]) (before ++ .run (ss ++ more) :: rest)

theorem scope_prefix_step {scope : List String} {st : Statement} {s s' : Assembly}
    (h : scope <+: s.symbols.scope) (hstep : Executes s st s') : scope <+: s'.symbols.scope := by
  cases hstep with
  | operation hbuilt => exact h
  | @label pos name hfree =>
    show scope <+: (s.symbols.bind name s.image.here).scope
    rw [Symbols.scope_bind]
    by_cases hbound : name ∈ s.symbols.scope
    · rw [if_pos hbound]
      exact h
    · rw [if_neg hbound]
      exact h.trans (List.prefix_append ..)

theorem scope_prefix_calls {scope : List String} (calls : List Call) {s : Assembly}
    (h : scope <+: s.symbols.scope) : scope <+: (calls.foldl Assembly.call s).symbols.scope := by
  apply calls_preserve (P := fun s => scope <+: s.symbols.scope) scope_prefix_step calls h
  · intro _ s hs
    exact hs
  · intro s j hs
    exact hs

/-- What was declared first stands in front. -/
theorem scope_prefix {before : List Call} (h : Begins before calls) :
    (after before).symbols.scope <+: (after calls).symbols.scope := by
  cases h with
  | between before rest =>
    unfold after
    rw [List.foldl_append]
    exact scope_prefix_calls rest List.prefix_rfl
  | within before rest ss more =>
    unfold after
    rw [List.foldl_append, List.foldl_append]
    apply scope_prefix_calls rest
    generalize before.foldl Assembly.call {} = s
    show ((executeAll ss).finalState s).symbols.scope <+:
      ((executeAll (ss ++ more)).finalState s).symbols.scope
    rcases finalState_append s ss more with hsame | hlater
    · exact ⟨[], by rw [hsame, List.append_nil]⟩
    · rw [hlater]
      exact executeAll_preserves scope_prefix_step more List.prefix_rfl

end Session

/-! ## Labels by address -/

namespace Symbols

/-- Collecting the labels of the addresses below `n` one address after the other
    misses none and takes none twice. -/
theorem perm_labelsAt (t : Symbols) (n : Nat) :
    ((List.range n).flatMap t.labelsAt).Perm (t.labels.filter (·.address < n)) := by
  induction n with
  | zero => simp
  | succ n ih =>
    -- The labels below `n + 1` are those below `n` and those at `n`.
    have hbelow : (t.labels.filter (·.address < n + 1)).filter (·.address < n) =
        t.labels.filter (·.address < n) := by
      rw [List.filter_filter]
      refine List.filter_congr fun l _ => ?_
      rw [Bool.eq_iff_iff, Bool.and_eq_true, decide_eq_true_iff, decide_eq_true_iff]
      omega
    have hat : (t.labels.filter (·.address < n + 1)).filter (fun l => !decide (l.address < n)) =
        t.labelsAt n := by
      rw [List.filter_filter, labelsAt]
      refine List.filter_congr fun l _ => ?_
      rw [Bool.eq_iff_iff, Bool.and_eq_true, Bool.not_eq_true', decide_eq_false_iff_not,
        decide_eq_true_iff, beq_iff_eq]
      omega
    have hsplit := List.filter_append_perm (·.address < n) (t.labels.filter (·.address < n + 1))
    rw [hbelow, hat] at hsplit
    rw [List.range_succ, List.flatMap_append, List.flatMap_singleton]
    exact (ih.append_right _).trans hsplit

end Symbols

/-! ## Runs of one file -/

namespace Listing

/-- The lines of an entry at an address: the labels of the address in table
    order, and then the word. -/
def placedLines (t : Symbols) (p : Entry × Nat) : List Line :=
  (t.labels.filter (·.address == p.2)).map (fun l => .label l.name) ++ [p.1.line p.2]

/-- The lines of consecutive entries from one file, below its heading. -/
def runLines (t : Symbols) : List (Entry × Nat) → List Line
  | []      => []
  | p :: ps => .heading p.1.origin.file :: (p :: ps).flatMap (placedLines t)

def sameFile (p q : Entry × Nat) : Bool :=
  p.1.origin.file == q.1.origin.file

/-- The entries with their addresses, cut wherever the file changes. -/
def fileRuns (es : List Entry) : List (List (Entry × Nat)) :=
  es.zipIdx.splitBy sameFile

/-- The lines of entries that stand at given addresses, where `before` is the
    file of the entry in front of them. -/
def linesFrom (t : Symbols) : Option String → List (Entry × Nat) → List Line
  | _, []           => []
  | before, p :: ps =>
    (entryRows t before p.2 p.1).map Row.line ++ linesFrom t (some p.1.origin.file) ps

variable (t : Symbols)

/-- As long as addresses do not wrap around, the address of an entry is its
    place. -/
theorem flatMap_entryRows (before : Option String) (k : Nat) (es : List Entry)
    (h : k + es.length ≤ addressSpan) :
    (((es.zip (before :: es.map fun e => some e.origin.file)).zipIdx k).flatMap
        (fun ((e, before), index) => entryRows t before (index % addressSpan) e)).map Row.line =
      linesFrom t before (es.zipIdx k) := by
  induction es generalizing before k with
  | nil => rfl
  | cons e es ih =>
    rw [List.length_cons] at h
    have hk : k % addressSpan = k := Nat.mod_eq_of_lt (by omega)
    have hrest := ih (some e.origin.file) (k + 1) (by omega)
    rw [List.map_cons, List.zip_cons_cons, List.zipIdx_cons, List.flatMap_cons, List.map_append,
      hrest, List.zipIdx_cons]
    simp only [hk, linesFrom]

theorem map_line_labelRows (address : Nat) :
    (labelRows t address).map Row.line =
      (t.labels.filter (·.address == address)).map fun l => .label l.name :=
  List.map_map

theorem entryRows_same (p : Entry × Nat) :
    (entryRows t (some p.1.origin.file) p.2 p.1).map Row.line = placedLines t p := by
  rw [entryRows, headingRows, if_pos rfl, List.nil_append, List.map_append, map_line_labelRows]
  rfl

theorem entryRows_change {before : Option String} {p : Entry × Nat}
    (h : before ≠ some p.1.origin.file) :
    (entryRows t before p.2 p.1).map Row.line =
      .heading p.1.origin.file :: placedLines t p := by
  rw [entryRows, headingRows, if_neg h, List.map_append, List.map_append, map_line_labelRows]
  rfl

/-- Within one file there are no headings. -/
theorem linesFrom_append {file : String} {ps : List (Entry × Nat)} (rest : List (Entry × Nat))
    (h : ∀ p ∈ ps, p.1.origin.file = file) :
    linesFrom t (some file) (ps ++ rest) =
      ps.flatMap (placedLines t) ++ linesFrom t (some file) rest := by
  induction ps with
  | nil => rfl
  | cons p ps ih =>
    obtain rfl : p.1.origin.file = file := h p (List.mem_cons_self ..)
    have hps := ih fun q hq => h q (List.mem_cons_of_mem _ hq)
    rw [List.cons_append, linesFrom, hps, entryRows_same, List.flatMap_cons, List.append_assoc]

theorem file_eq_of_isChain {p : Entry × Nat} {ps : List (Entry × Nat)}
    (h : (p :: ps).IsChain (sameFile · · = true)) :
    ∀ q ∈ p :: ps, q.1.origin.file = p.1.origin.file := by
  induction ps generalizing p with
  | nil =>
    intro q hq
    rw [List.mem_singleton.1 hq]
  | cons p' ps ih =>
    rw [List.isChain_cons_cons] at h
    have hsame : p.1.origin.file = p'.1.origin.file := eq_of_beq h.1
    intro q hq
    rcases List.mem_cons.1 hq with rfl | hq
    · rfl
    · rw [hsame]
      exact ih h.2 q hq

/-- After a run from one file comes another file. -/
theorem file_ne_of_isChain {p : Entry × Nat} {ps : List (Entry × Nat)}
    {runs : List (List (Entry × Nat))} (hfile : ∀ q ∈ p :: ps, q.1.origin.file = p.1.origin.file)
    (hdiffer : ((p :: ps) :: runs).IsChain
      fun a b => ∃ ha hb, sameFile (a.getLast ha) (b.head hb) = false) :
    ∀ q ∈ runs.flatten.head?, some p.1.origin.file ≠ some q.1.origin.file := by
  cases runs with
  | nil => exact nofun
  | cons run runs =>
    rw [List.isChain_cons_cons] at hdiffer
    obtain ⟨hps, hrun, hapart⟩ := hdiffer.1
    intro q hq heq
    have hhead : q = run.head hrun := by
      rw [List.flatten_cons, List.head?_append, List.head?_eq_some_head hrun] at hq
      exact (Option.some.inj hq).symm
    -- The last entry of the run has the file of the first.
    have hlast := hfile _ (List.getLast_mem hps)
    have hsame : sameFile ((p :: ps).getLast hps) (run.head hrun) = true := by
      rw [sameFile, hlast, ← hhead, Option.some.inj heq]
      exact beq_self_eq_true _
    rw [hsame] at hapart
    cases hapart

/-- A heading stands exactly where a run begins. -/
theorem linesFrom_flatten {before : Option String} {runs : List (List (Entry × Nat))}
    (hne : [] ∉ runs) (hsame : ∀ run ∈ runs, run.IsChain (sameFile · · = true))
    (hdiffer : runs.IsChain fun a b => ∃ ha hb, sameFile (a.getLast ha) (b.head hb) = false)
    (hbefore : ∀ p ∈ runs.flatten.head?, before ≠ some p.1.origin.file) :
    linesFrom t before runs.flatten = runs.flatMap (runLines t) := by
  induction runs generalizing before with
  | nil => rfl
  | cons run runs ih =>
    cases run with
    | nil => exact absurd (List.mem_cons_self ..) hne
    | cons p ps =>
      have hfile := file_eq_of_isChain (hsame _ (List.mem_cons_self ..))
      have hchange : before ≠ some p.1.origin.file := hbefore p rfl
      have hnext := file_ne_of_isChain hfile hdiffer
      have hrest := ih (fun hmem => hne (List.mem_cons_of_mem _ hmem))
        (fun r hr => hsame r (List.mem_cons_of_mem _ hr)) hdiffer.tail hnext
      rw [List.flatten_cons, List.cons_append, linesFrom, entryRows_change t hchange,
        linesFrom_append t _ fun q hq => hfile q (List.mem_cons_of_mem _ hq), hrest,
        List.flatMap_cons, runLines, List.flatMap_cons]
      simp

theorem linesFrom_zipIdx (es : List Entry) :
    linesFrom t none es.zipIdx = (fileRuns es).flatMap (runLines t) := by
  have hruns := List.splitBy_eq_iff.1 (rfl : es.zipIdx.splitBy sameFile = fileRuns es)
  obtain ⟨hflatten, hne, hsame, hdiffer⟩ := hruns
  rw [hflatten]
  apply linesFrom_flatten t hne hsame hdiffer
  intro p _
  exact nofun

/-- The lines of an image: run by run, each below its heading. -/
theorem map_line_bodyRows {es : List Entry} (h : es.length ≤ addressSpan) :
    (bodyRows t es).map Row.line = (fileRuns es).flatMap (runLines t) := by
  rw [← linesFrom_zipIdx]
  exact flatMap_entryRows t none 0 es (by omega)

/-! ## What the lines show -/

theorem flatten_fileRuns (es : List Entry) : (fileRuns es).flatten = es.zipIdx :=
  List.flatten_splitBy ..

/-- A view that passes over headings sees the lines of the entries only. -/
theorem filterMap_flatMap_runLines {α : Type} {f : Line → Option α}
    (h : ∀ file, f (.heading file) = none) (runs : List (List (Entry × Nat))) :
    (runs.flatMap (runLines t)).filterMap f =
      (runs.flatten.flatMap (placedLines t)).filterMap f := by
  induction runs with
  | nil => rfl
  | cons run runs ih =>
    have hrun : (runLines t run).filterMap f = (run.flatMap (placedLines t)).filterMap f := by
      cases run with
      | nil => rfl
      | cons p ps => rw [runLines, List.filterMap_cons_none (h _)]
    rw [List.flatMap_cons, List.filterMap_append, hrun, ih, List.flatten_cons,
      List.flatMap_append, List.filterMap_append]

theorem length_flatMap_runLines {runs : List (List (Entry × Nat))} (h : [] ∉ runs) :
    (runs.flatMap (runLines t)).length =
      runs.length + (runs.flatten.flatMap (placedLines t)).length := by
  induction runs with
  | nil => rfl
  | cons run runs ih =>
    have hrest := ih fun hmem => h (List.mem_cons_of_mem _ hmem)
    cases run with
    | nil => exact absurd (List.mem_cons_self ..) h
    | cons p ps =>
      rw [List.flatMap_cons, List.length_append, hrest, runLines, List.flatten_cons,
        List.flatMap_append, List.length_append, List.length_cons, List.length_cons]
      omega

theorem length_flatMap_placedLines (ps : List (Entry × Nat)) :
    (ps.flatMap (placedLines t)).length =
      ps.length + (ps.flatMap fun p => t.labelsAt p.2).length := by
  induction ps with
  | nil => rfl
  | cons p ps ih =>
    rw [List.flatMap_cons, List.length_append, ih, List.flatMap_cons, List.length_append,
      List.length_cons, placedLines, List.length_append, List.length_map, List.length_singleton,
      Symbols.labelsAt]
    omega

/-- The labels that the entries of an image pass are those of its addresses. -/
theorem flatMap_labelsAt_zipIdx (es : List Entry) :
    (es.zipIdx.flatMap fun p => t.labelsAt p.2) = (List.range es.length).flatMap t.labelsAt := by
  rw [List.range_eq_range', ← List.zipIdx_map_snd 0 es, List.flatMap_map]

/-! ## The listing as a whole -/

/-- What a reader finds in the listing of `s`. -/
def shown (s : Assembly) : List Line :=
  (lines s).filterMap Line.read?

/-- The words stand run by run below the headings of their files, each of them
    right behind the labels of its address.  Only the labels of the current
    address stand behind all words, and the footing is last. -/
def layout (s : Assembly) : List Line :=
  (fileRuns s.image.entries.toList).flatMap (runLines s.symbols) ++
    (s.symbols.labels.filter (·.address == s.image.size)).map (fun l => .label l.name) ++
    [.footing]

/-- The listing of `s` shows every label and every word once, and in place.  All
    of this is said of the text of its lines. -/
structure ShowsAll (s : Assembly) : Prop where
  /-- The lines are laid out, and no line says anything else. -/
  lines_read : (lines s).map Line.read? = (layout s).map some
  /-- Every label of the table has a line, and no other line shows a label. -/
  labels : ((shown s).filterMap Line.name?).Perm (s.symbols.labels.map (·.name))
  /-- No label has two lines. -/
  nodup : ((shown s).filterMap Line.name?).Nodup
  /-- The address columns count from zero. -/
  addresses : ((shown s).filterMap Line.columns?).map (·.1) = List.range s.image.size
  /-- The byte columns spell the image. -/
  bytes : (((shown s).filterMap Line.columns?).flatMap fun c => [c.2.1, c.2.2]) = s.image.bytes
  /-- One line for each word, each label and each run, and the footing. -/
  length : (lines s).length =
    s.image.size + s.symbols.labels.length + (fileRuns s.image.entries.toList).length + 1

variable {s : Assembly}

/-- The rows are laid out. -/
theorem map_line_rows (h : s.image.size < addressSpan) : (rows s).map Row.line = layout s := by
  have hlength : s.image.entries.toList.length ≤ addressSpan := Nat.le_of_lt h
  rw [rows, List.map_append, List.map_append, map_line_bodyRows _ hlength, map_line_labelRows,
    Image.here, Nat.mod_eq_of_lt h]
  rfl

theorem map_read?_lines (s : Assembly) :
    (lines s).map Line.read? = ((rows s).map Row.line).map some := by
  rw [lines, List.map_map, List.map_map]
  exact List.map_congr_left fun r _ => Line.read?_render r

theorem shown_eq (s : Assembly) : shown s = (rows s).map Row.line := by
  rw [shown, lines, List.filterMap_map, ← List.filterMap_eq_map]
  exact List.filterMap_congr fun r _ => Line.read?_render r

/-- A view that passes over headings and the footing sees what the entries show,
    each with the labels of its address, and the labels behind them. -/
theorem filterMap_shown {α : Type} {f : Line → Option α} (h : s.image.size < addressSpan)
    (hheading : ∀ file, f (.heading file) = none) (hfooting : f .footing = none) :
    (shown s).filterMap f =
      (s.image.entries.toList.zipIdx.flatMap fun p => (placedLines s.symbols p).filterMap f) ++
        ((s.symbols.labelsAt s.image.size).map fun l => Line.label l.name).filterMap f := by
  rw [shown_eq, map_line_rows h, layout, List.filterMap_append, List.filterMap_append,
    filterMap_flatMap_runLines _ hheading, flatten_fileRuns, List.filterMap_flatMap,
    List.filterMap_cons_none hfooting, List.filterMap_nil, List.append_nil]
  rfl

/-- The labels that a listing passes are all there are. -/
theorem perm_labels_passed (h : LabelsWithin s) :
    ((s.image.entries.toList.zipIdx.flatMap fun p => s.symbols.labelsAt p.2) ++
      s.symbols.labelsAt s.image.size).Perm s.symbols.labels := by
  have hall : s.symbols.labels.filter (·.address < s.image.size + 1) = s.symbols.labels := by
    rw [List.filter_eq_self]
    intro l hl
    rw [decide_eq_true_iff]
    exact Nat.lt_succ_of_le (h l hl)
  have hperm := s.symbols.perm_labelsAt (s.image.size + 1)
  rw [hall, List.range_succ, List.flatMap_append, List.flatMap_singleton] at hperm
  rw [flatMap_labelsAt_zipIdx]
  exact hperm

/-- The label lines in the order of the listing. -/
theorem filterMap_name? (h : s.image.size < addressSpan) :
    (shown s).filterMap Line.name? =
      ((s.image.entries.toList.zipIdx.flatMap fun p => s.symbols.labelsAt p.2) ++
        s.symbols.labelsAt s.image.size).map (·.name) := by
  have hlabels : ∀ ls : List Label,
      (ls.map fun l => Line.label l.name).filterMap Line.name? = ls.map (·.name) := by
    intro ls
    rw [List.filterMap_map]
    exact congrFun List.filterMap_eq_map' ls
  have hplaced : ∀ p, (placedLines s.symbols p).filterMap Line.name? =
      (s.symbols.labelsAt p.2).map (·.name) := by
    intro p
    rw [placedLines, List.filterMap_append, hlabels]
    exact List.append_nil _
  rw [filterMap_shown h (fun _ => rfl) rfl, hlabels, List.map_append, List.map_flatMap]
  simp only [hplaced]

/-- The columns in the order of the listing. -/
theorem filterMap_columns? (h : s.image.size < addressSpan) :
    (shown s).filterMap Line.columns? =
      s.image.entries.toList.zipIdx.map fun p =>
        (p.2, .ofNat (p.1.instruction.encode.toNat / 256),
          .ofNat (p.1.instruction.encode.toNat % 256)) := by
  have hlabels : ∀ ls : List Label,
      (ls.map fun l => Line.label l.name).filterMap Line.columns? = [] := by
    intro ls
    rw [List.filterMap_map, List.filterMap_eq_nil_iff]
    intro l _
    rfl
  have hplaced : ∀ p, (placedLines s.symbols p).filterMap Line.columns? =
      [(p.2, .ofNat (p.1.instruction.encode.toNat / 256),
        .ofNat (p.1.instruction.encode.toNat % 256))] := by
    intro p
    rw [placedLines, List.filterMap_append, hlabels]
    rfl
  rw [filterMap_shown h (fun _ => rfl) rfl, hlabels, List.append_nil]
  simp only [hplaced]
  exact List.flatMap_pure_eq_map ..

theorem length_lines (hsize : s.image.size < addressSpan) (h : LabelsWithin s) :
    (lines s).length =
      s.image.size + s.symbols.labels.length + (fileRuns s.image.entries.toList).length + 1 := by
  have hpassed := (perm_labels_passed h).length_eq
  rw [List.length_append] at hpassed
  have hentries : s.image.entries.toList.zipIdx.length = s.image.size := List.length_zipIdx
  have hnil : [] ∉ fileRuns s.image.entries.toList := List.nil_notMem_splitBy _ _
  have hrows := congrArg List.length (map_line_rows hsize)
  rw [List.length_map, layout, List.length_append, List.length_append,
    length_flatMap_runLines _ hnil, flatten_fileRuns,
    length_flatMap_placedLines, List.length_map, List.length_singleton] at hrows
  rw [lines, List.length_map]
  simp only [Symbols.labelsAt] at hpassed hrows
  omega

/-- What a listing needs of an assembly to show all of it. -/
theorem showsAll_of_labelsWithin (hsize : s.image.size < addressSpan) (h : LabelsWithin s)
    (hnodup : s.symbols.scope.Nodup) : ShowsAll s where
  lines_read := by
    rw [map_read?_lines, map_line_rows hsize]
  labels := by
    rw [filterMap_name? hsize]
    exact (perm_labels_passed h).map _
  nodup := by
    rw [filterMap_name? hsize, ((perm_labels_passed h).map _).nodup_iff]
    exact hnodup
  addresses := by
    rw [filterMap_columns? hsize, List.map_map, List.range_eq_range']
    exact List.zipIdx_map_snd 0 s.image.entries.toList
  bytes := by
    have hplaces : s.image.words =
        s.image.entries.toList.zipIdx.map fun p => p.1.instruction.encode := by
      have hentries := List.zipIdx_map_fst 0 s.image.entries.toList
      rw [Image.words, ← hentries, List.map_map, hentries]
      rfl
    rw [filterMap_columns? hsize, List.flatMap_map, Image.bytes, OnePass.bytes, hplaces,
      List.flatMap_map]
    simp only [Word.bytes_eq]
  length := length_lines hsize h

/-- After any calls that do not start over, successful or failing, the listing
    shows every label and every word once and in place, and labels of equal
    address stand in the order in which they were declared: the table begins
    with what it held at any earlier point of the session. -/
theorem shows_session {calls : List Call} (hreset : Call.reset ∉ calls)
    (hsize : (Session.after calls).image.size < addressSpan) :
    ShowsAll (Session.after calls) ∧
      ∀ before, Session.Begins before calls →
        (Session.after before).symbols.scope <+: (Session.after calls).symbols.scope := by
  constructor
  · exact showsAll_of_labelsWithin hsize (Session.labelsWithin_after hreset)
      (Session.nodup_scope_after calls)
  · intro before hbegins
    exact Session.scope_prefix hbegins

/-- Two files in turn, a label that moves to the address of another, a run that
    breaks off, a name that is refused, and a label behind the last word. -/
def patchwork : List Call :=
  [.define ⟨"a.s", 1⟩ "top", .define ⟨"a.s", 2⟩ "loop", .place ⟨"a.s", 3⟩ .jmp [.name "top"],
    .run [⟨⟨"b.s", 1⟩, "jmp", [.name "loop"]⟩, ⟨⟨"b.s", 2⟩, "label", [.text "tail"]⟩,
      ⟨⟨"b.s", 3⟩, "label", [.text "top"]⟩, ⟨⟨"b.s", 4⟩, "jmp", []⟩,
      ⟨⟨"b.s", 5⟩, "jmp", [.number 1]⟩],
    .define ⟨"a.s", 4⟩ "add", .place ⟨"a.s", 5⟩ .jmp [.number 7], .define ⟨"a.s", 6⟩ "end"]

theorem shows_patchwork :
    Call.reset ∉ patchwork ∧ (Session.after patchwork).image.size < addressSpan ∧
      ShowsAll (Session.after patchwork) ∧
      (lines (Session.after patchwork)).map Line.read? =
        [some (.heading "a.s"), some (.label "loop"),
          some (.word 0 0x50 0x00 3 (Instruction.jmp 0).styled),
          some (.heading "b.s"),
          some (.word 1 0x50 0x00 1 (Instruction.jmp 0).styled),
          some (.heading "a.s"), some (.label "top"), some (.label "tail"),
          some (.word 2 0x50 0x07 5 (Instruction.jmp 7).styled),
          some (.label "end"), some .footing] := by
  have hreset : Call.reset ∉ patchwork := by simp [patchwork]
  have hsize : (Session.after patchwork).image.size < addressSpan := by decide +kernel
  obtain ⟨hshows, _⟩ := shows_session hreset hsize
  refine ⟨hreset, hsize, hshows, hshows.lines_read.trans ?_⟩
  decide +kernel

end Listing

end OnePass
