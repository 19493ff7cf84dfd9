import OnePass.Files.Path
import OnePass.Text.Lines

/-! # Paths as texts

    A path with a file name is a directory part, the name, and slashes and `.`
    names behind it that do not count.  Replacing its extension cuts the text
    after the stem of the name and continues it.

    On the way the old extension is measured and dropped from the end of the
    whole text, where slashes and `.` names may stand.  If they do, part of the
    extension or all of it is left.  It does not matter which, because the stem
    is looked for again.  Only for a name `..x` at the very end is there no
    stem to be found: what is left of it is `..`.

    * `Path.Splits` : a path that ends in a name.
    * `Path.Parts` : a path with a file name.
    * `Path.fileName?_eq_some_iff` : these are the paths that have one.
    * `Path.short_of_parts` : what is left when the extension is dropped.
    * `Path.replaceExtension_of_parts` : the path with another extension. -/

namespace OnePass

namespace Path

/-! ## Names -/

/-- The text ends in a name, after its last slash. -/
structure Splits (cs directory name : List Char) : Prop where
  eq_append : cs = directory ++ name
  slash_not_mem : '/' ∉ name
  closed : directory = [] ∨ ∃ front, directory = front ++ ['/']

theorem exists_splits (cs : List Char) : ∃ directory name, Splits cs directory name := by
  induction cs with
  | nil => exact ⟨[], [], rfl, by simp, .inl rfl⟩
  | cons c cs ih =>
    obtain ⟨directory, name, rfl, hname, hclosed⟩ := ih
    rcases hclosed with rfl | ⟨front, rfl⟩
    · by_cases hc : c = '/'
      · exact ⟨['/'], name, by simp [hc], hname, .inr ⟨[], rfl⟩⟩
      · exact ⟨[], c :: name, rfl, by simp [Ne.symm hc, hname], .inl rfl⟩
    · exact ⟨c :: front ++ ['/'], name, by simp, hname, .inr ⟨c :: front, rfl⟩⟩

/-- The names of the directory part stand before the name. -/
theorem pieces_of_splits {cs directory name : List Char} (h : Splits cs directory name) :
    Text.pieces '/' cs = (Text.pieces '/' directory).dropLast ++ [name] := by
  obtain ⟨rfl, hname, rfl | ⟨front, rfl⟩⟩ := h
  · simp [Text.pieces_of_not_mem hname]
  · rw [List.append_assoc, List.singleton_append, Text.pieces_append_cut,
      Text.pieces_append_cut, Text.pieces_of_not_mem hname, Text.pieces_nil,
      List.dropLast_concat]

/-- Nothing is trimmed from a path that ends in a name. -/
theorem trimEnd_of_splits {cs directory name : List Char} (h : Splits cs directory name)
    (hempty : name ≠ []) (hdot : name ≠ ['.']) : trimEnd cs = cs := by
  obtain ⟨rfl, hname, -⟩ := h
  have hslash : '/' ∉ name.reverse := by rwa [List.mem_reverse]
  have hstays : trimReversed (name.reverse ++ directory.reverse) =
      name.reverse ++ directory.reverse := by
    match hreverse : name.reverse with
    | [] => exact absurd (List.reverse_eq_nil_iff.1 hreverse) hempty
    | [c] =>
      have hc : c ≠ '/' := by
        rintro rfl
        simp [hreverse] at hslash
      have hc' : c ≠ '.' := by
        rintro rfl
        exact hdot (by simpa using congrArg List.reverse hreverse)
      rw [List.singleton_append]
      unfold trimReversed
      split <;> simp_all
    | c :: c' :: rest =>
      have hc : c ≠ '/' := by
        rintro rfl
        simp [hreverse] at hslash
      have hc' : c' ≠ '/' := by
        rintro rfl
        simp [hreverse] at hslash
      rw [List.cons_append, List.cons_append]
      unfold trimReversed
      split <;> simp_all
  unfold trimEnd
  rw [List.reverse_append, hstays, List.reverse_append, List.reverse_reverse,
    List.reverse_reverse]

theorem reverse_of_splits {cs directory name : List Char} (h : Splits cs directory name) :
    cs.reverse.takeWhile (· != '/') = name.reverse ∧
      cs.reverse.dropWhile (· != '/') = directory.reverse := by
  obtain ⟨rfl, hname, hclosed⟩ := h
  have hall : ∀ c ∈ name.reverse, (c != '/') = true := by
    intro c hc
    rw [bne_iff_ne]
    rintro rfl
    exact hname (List.mem_reverse.1 hc)
  rw [List.reverse_append, List.takeWhile_append_of_pos hall, List.dropWhile_append_of_pos hall]
  rcases hclosed with rfl | ⟨front, rfl⟩ <;> simp

theorem lastName_of_trimEnd {cs directory name : List Char}
    (h : Splits (trimEnd cs) directory name) : lastName cs = name := by
  unfold lastName
  rw [(reverse_of_splits h).1, List.reverse_reverse]

/-- The name is a file name unless it is `..`. -/
theorem fileName?_of_splits {cs directory name : List Char} (h : Splits cs directory name)
    (hempty : name ≠ []) (hdot : name ≠ ['.']) :
    fileName? cs = if name = ['.', '.'] then none else some name := by
  have hlast : lastName cs = name := by
    apply lastName_of_trimEnd
    rw [trimEnd_of_splits h hempty hdot]
    exact h
  unfold fileName?
  rw [hlast]
  simp [hempty, hdot]

/-! ## Extensions -/

theorem splitExtension_append {stem ext : List Char} (hstem : stem ≠ []) (hext : '.' ∉ ext) :
    splitExtension (stem ++ '.' :: ext) = (stem, some ext) := by
  obtain ⟨hafter, hbefore⟩ := Text.reverse_append_cut stem hext
  unfold splitExtension
  rw [hafter, hbefore, List.reverse_reverse]
  cases hcs : stem.reverse with
  | nil => exact absurd (List.reverse_eq_nil_iff.1 hcs) hstem
  | cons c rest =>
    have hback : (c :: rest).reverse = stem := by rw [← hcs, List.reverse_reverse]
    dsimp only
    rw [hback]

/-- A name has an extension if it has a dot that is not its first character. -/
theorem splitExtension_cases (name : List Char) :
    splitExtension name = (name, none) ∨
      ∃ stem ext, stem ≠ [] ∧ '.' ∉ ext ∧ name = stem ++ '.' :: ext := by
  unfold splitExtension
  dsimp only
  split
  case h_2 => exact .inl rfl
  case h_1 dot c stem hdrop =>
    -- What is dropped from the end stops short of a dot.
    have hdot : dot = '.' := by
      have hhead := List.head?_dropWhile_not (· != '.') name.reverse
      rw [hdrop] at hhead
      simpa using hhead
    refine .inr ⟨(c :: stem).reverse, (name.reverse.takeWhile (· != '.')).reverse, by simp, ?_, ?_⟩
    · intro hmem
      have hpassed := List.all_eq_true.1 List.all_takeWhile _ (List.mem_reverse.1 hmem)
      simp at hpassed
    · calc name
          = (name.reverse.takeWhile (· != '.') ++ name.reverse.dropWhile (· != '.')).reverse := by
            rw [List.takeWhile_append_dropWhile, List.reverse_reverse]
        _ = (c :: stem).reverse ++ '.' :: (name.reverse.takeWhile (· != '.')).reverse := by
            rw [hdrop, hdot]
            simp

/-- A name is its stem continued by an extension just if that is the extension
    it has. -/
theorem eq_stem_append_iff {name ext : List Char} :
    name = (splitExtension name).1 ++ '.' :: ext ↔ (splitExtension name).2 = some ext := by
  rcases splitExtension_cases name with hnone | ⟨stem, old, hstem, hold, rfl⟩
  · rw [hnone]
    simp
  · rw [splitExtension_append hstem hold]
    simp

theorem mem_of_mem_stem {name : List Char} {c : Char} (h : c ∈ (splitExtension name).1) :
    c ∈ name := by
  rcases splitExtension_cases name with hnone | ⟨stem, old, hstem, hold, rfl⟩
  · rwa [hnone] at h
  · rw [splitExtension_append hstem hold] at h
    exact List.mem_append_left _ h

/-! ## Paths in parts -/

/-- Slashes and `.` names, which do not count at the end of a path. -/
inductive Trail : List Char → Prop
  | nil : Trail []
  | slash {cs : List Char} : Trail cs → Trail ('/' :: cs)
  | slashDot {cs : List Char} : Trail cs → Trail ('/' :: '.' :: cs)

/-- `Parts cs directory name trail`: a path whose last name is a file name. -/
structure Parts (cs directory name trail : List Char) : Prop where
  eq_append : cs = directory ++ (name ++ trail)
  closed : directory = [] ∨ ∃ front, directory = front ++ ['/']
  slash_not_mem : '/' ∉ name
  ne_nil : name ≠ []
  ne_dot : name ≠ ['.']
  ne_dots : name ≠ ['.', '.']
  trail : Trail trail

/-- `Stem name stem`: the stem is what stands before the last dot, unless that
    is the first character or there is none. -/
inductive Stem : List Char → List Char → Prop
  | whole {name : List Char} : '.' ∉ name.tail → Stem name name
  | cut {stem ext : List Char} : stem ≠ [] → '.' ∉ ext → Stem (stem ++ '.' :: ext) stem

/-- The name is `..x`, with a non-empty `x` that has no dots, and nothing
    follows it. -/
structure DoubleDotted (name trail x : List Char) : Prop where
  eq_append : name = '.' :: '.' :: x
  ne_nil : x ≠ []
  dot_not_mem : '.' ∉ x
  at_end : trail = []

/-! ## File names -/

variable {cs directory name trail stem ext : List Char}

theorem Trail.append {xs ys : List Char} (hx : Trail xs) (hy : Trail ys) : Trail (xs ++ ys) := by
  induction hx with
  | nil => exact hy
  | slash _ ih => exact .slash ih
  | slashDot _ ih => exact .slashDot ih

/-- A trail stays one wherever it is broken off. -/
theorem Trail.of_append {xs ys : List Char} (h : Trail (xs ++ ys)) : Trail xs := by
  generalize hcs : xs ++ ys = cs at h
  induction h generalizing xs with
  | nil =>
    rw [(List.append_eq_nil_iff.1 hcs).1]
    exact .nil
  | slash _ ih =>
    cases xs with
    | nil => exact .nil
    | cons x xs =>
      obtain ⟨hx, htail⟩ := List.cons.inj hcs
      rw [hx]
      exact .slash (ih htail)
  | slashDot _ ih =>
    match xs, hcs with
    | [], _ => exact .nil
    | [x], hcs =>
      -- Broken off between the slash and the dot.
      rw [(List.cons.inj hcs).1]
      exact .slash .nil
    | x :: x' :: xs, hcs =>
      obtain ⟨hx, htail⟩ := List.cons.inj hcs
      obtain ⟨hx', htail'⟩ := List.cons.inj htail
      rw [hx, hx']
      exact .slashDot (ih htail')

theorem trimReversed_append (h : Trail trail) (cs : List Char) :
    trimReversed (trail.reverse ++ cs) = trimReversed cs := by
  induction h generalizing cs with
  | nil => rfl
  | slash _ ih =>
    rw [List.reverse_cons, List.append_assoc, ih]
    rfl
  | slashDot _ ih =>
    rw [List.reverse_cons, List.reverse_cons, List.append_assoc, List.append_assoc, ih]
    rfl

theorem trimEnd_append (h : Trail trail) (cs : List Char) :
    trimEnd (cs ++ trail) = trimEnd cs := by
  unfold trimEnd
  rw [List.reverse_append, trimReversed_append h]

theorem exists_trail_reversed (rs : List Char) :
    ∃ trail, Trail trail ∧ rs = trail.reverse ++ trimReversed rs := by
  fun_induction trimReversed rs with
  | case1 rs ih =>
    obtain ⟨trail, htrail, hrs⟩ := ih
    refine ⟨trail ++ ['/'], htrail.append (.slash .nil), ?_⟩
    rw [List.reverse_append, List.append_assoc, ← hrs]
    rfl
  | case2 rs ih =>
    obtain ⟨trail, htrail, hrs⟩ := ih
    refine ⟨trail ++ ['/', '.'], htrail.append (.slashDot .nil), ?_⟩
    rw [List.reverse_append, List.append_assoc, ← hrs]
    rfl
  | case3 rs => exact ⟨[], .nil, rfl⟩

/-- What is trimmed is a trail. -/
theorem exists_trail (cs : List Char) : ∃ trail, Trail trail ∧ cs = trimEnd cs ++ trail := by
  obtain ⟨trail, htrail, hrs⟩ := exists_trail_reversed cs.reverse
  refine ⟨trail, htrail, ?_⟩
  unfold trimEnd
  rw [← List.reverse_inj, List.reverse_append, List.reverse_reverse]
  exact hrs

/-- What is left of the path after trimming ends in its file name. -/
theorem Parts.splits (h : Parts cs directory name trail) :
    Splits (trimEnd cs) directory name := by
  have hname : Splits (directory ++ name) directory name := ⟨rfl, h.slash_not_mem, h.closed⟩
  rw [h.eq_append, ← List.append_assoc, trimEnd_append h.trail,
    trimEnd_of_splits hname h.ne_nil h.ne_dot]
  exact hname

theorem Parts.directoryPart_eq (h : Parts cs directory name trail) :
    directoryPart cs = directory := by
  unfold directoryPart
  rw [(reverse_of_splits h.splits).2, List.reverse_reverse]

/-- The paths that have a file name, and which one. -/
theorem fileName?_eq_some_iff :
    fileName? cs = some name ↔ ∃ directory trail, Parts cs directory name trail := by
  constructor
  · intro h
    obtain ⟨trail, htrail, hcs⟩ := exists_trail cs
    obtain ⟨directory, last, hsplits⟩ := exists_splits (trimEnd cs)
    unfold fileName? at h
    rw [lastName_of_trimEnd hsplits] at h
    dsimp only at h
    by_cases hrefused : last = [] ∨ last = ['.'] ∨ last = ['.', '.']
    · rw [if_pos hrefused] at h
      cases h
    · rw [if_neg hrefused] at h
      cases h
      rw [not_or, not_or] at hrefused
      obtain ⟨hempty, hdot, hdots⟩ := hrefused
      refine ⟨directory, trail, ?_, hsplits.closed, hsplits.slash_not_mem, hempty, hdot, hdots,
        htrail⟩
      rw [← List.append_assoc, ← hsplits.eq_append]
      exact hcs
  · intro h
    obtain ⟨directory, trail, hparts⟩ := h
    unfold fileName?
    rw [lastName_of_trimEnd hparts.splits]
    exact if_neg (by simp [hparts.ne_nil, hparts.ne_dot, hparts.ne_dots])

theorem Parts.extension?_eq (h : Parts cs directory name trail) :
    extension? cs = (splitExtension name).2 := by
  unfold extension?
  rw [fileName?_eq_some_iff.2 ⟨directory, trail, h⟩]

theorem Splits.parts (h : Splits cs directory name) (hempty : name ≠ []) (hdot : name ≠ ['.'])
    (hdots : name ≠ ['.', '.']) : Parts cs directory name [] := by
  refine ⟨?_, h.closed, h.slash_not_mem, hempty, hdot, hdots, .nil⟩
  rw [List.append_nil]
  exact h.eq_append

/-! ## Stems -/

theorem dot_mem_tail (h : stem ≠ []) : '.' ∈ (stem ++ '.' :: ext).tail := by
  cases stem with
  | nil => exact absurd rfl h
  | cons c stem => simp

theorem splitExtension_whole (h : '.' ∉ name.tail) : splitExtension name = (name, none) := by
  rcases splitExtension_cases name with hnone | ⟨stem, ext, hstem, _, hname⟩
  · exact hnone
  · rw [hname] at h
    exact absurd (dot_mem_tail hstem) h

theorem Stem.splitExtension_eq (h : Stem name stem) : (splitExtension name).1 = stem := by
  cases h with
  | whole hdot => rw [splitExtension_whole hdot]
  | cut hstem hext => rw [splitExtension_append hstem hext]

theorem exists_stem (name : List Char) : ∃ stem, Stem name stem := by
  by_cases hdot : '.' ∈ name.tail
  · cases name with
    | nil => cases hdot
    | cons c rest =>
      -- The first dot from the end.
      obtain ⟨after, before, hrest, hafter⟩ :=
        List.eq_append_cons_of_mem (List.mem_reverse.2 hdot)
      have hname : c :: rest = (c :: before.reverse) ++ '.' :: after.reverse := by
        have hback := congrArg List.reverse hrest
        rw [List.tail_cons, List.reverse_reverse] at hback
        rw [hback]
        simp
      have hext : '.' ∉ after.reverse := by
        rw [List.mem_reverse]
        exact hafter
      rw [hname]
      exact ⟨_, .cut (List.cons_ne_nil _ _) hext⟩
  · exact ⟨name, .whole hdot⟩

theorem exists_fileName?_iff :
    (∃ name, fileName? cs = some name) ↔
      ∃ directory name trail stem, Parts cs directory name trail ∧ Stem name stem := by
  constructor
  · intro h
    obtain ⟨name, hname⟩ := h
    obtain ⟨directory, trail, hparts⟩ := fileName?_eq_some_iff.1 hname
    obtain ⟨stem, hstem⟩ := exists_stem name
    exact ⟨directory, name, trail, stem, hparts, hstem⟩
  · intro h
    obtain ⟨directory, name, trail, stem, hparts, _⟩ := h
    exact ⟨name, fileName?_eq_some_iff.2 ⟨directory, trail, hparts⟩⟩

/-! ## Sizes -/

theorem byteSize_append (xs ys : List Char) : byteSize (xs ++ ys) = byteSize xs + byteSize ys := by
  induction xs with
  | nil => simp [byteSize]
  | cons x xs ih => simp [byteSize, ih, Nat.add_assoc]

theorem byteSize_reverse (xs : List Char) : byteSize xs.reverse = byteSize xs := by
  induction xs with
  | nil => rfl
  | cons x xs ih => simp [byteSize, byteSize_append, ih, Nat.add_comm]

theorem dropBytes_append (xs ys : List Char) : dropBytes (byteSize xs) (xs ++ ys) = ys := by
  induction xs with
  | nil =>
    cases ys with
    | nil => rfl
    | cons y ys =>
      have hsize := y.utf8Size_pos
      have hstays : ¬ y.utf8Size ≤ 0 := by omega
      rw [List.nil_append, byteSize, dropBytes, if_neg hstays]
  | cons x xs ih =>
    rw [List.cons_append, byteSize, dropBytes, if_pos (Nat.le_add_right _ _),
      Nat.add_sub_cancel_left, ih]

/-- What goes is what was there last. -/
theorem dropLastBytes_append (xs ys : List Char) :
    dropLastBytes (byteSize ys) (xs ++ ys) = xs := by
  unfold dropLastBytes
  rw [List.reverse_append, ← byteSize_reverse, dropBytes_append, List.reverse_reverse]

/-! ## Dropping the extension -/

theorem dropBytes_suffix (n : Nat) (cs : List Char) :
    ∃ dropped, cs = dropped ++ dropBytes n cs ∧ byteSize dropped ≤ n := by
  fun_induction dropBytes n cs with
  | case1 n => exact ⟨[], rfl, Nat.zero_le n⟩
  | case2 n c cs hc ih =>
    obtain ⟨dropped, hcs, hsize⟩ := ih
    refine ⟨c :: dropped, ?_, ?_⟩
    · rw [List.cons_append, ← hcs]
    · rw [byteSize]
      omega
  | case3 n c cs hc => exact ⟨[], rfl, Nat.zero_le n⟩

theorem dropLastBytes_prefix (n : Nat) (cs : List Char) :
    ∃ dropped, cs = dropLastBytes n cs ++ dropped ∧ byteSize dropped ≤ n := by
  obtain ⟨dropped, hcs, hsize⟩ := dropBytes_suffix n cs.reverse
  refine ⟨dropped.reverse, ?_, ?_⟩
  · unfold dropLastBytes
    rw [← List.reverse_append, ← hcs, List.reverse_reverse]
  · rw [byteSize_reverse]
    exact hsize

theorem byteSize_pos (h : cs ≠ []) : 0 < byteSize cs := by
  cases cs with
  | nil => exact absurd rfl h
  | cons c cs =>
    have hsize := c.utf8Size_pos
    rw [byteSize]
    omega

/-- Dropping no more than the size of `ext` from the end of a text leaves
    something of what follows `front`, if there is more than `ext`. -/
theorem exists_left (front ext : List Char) (htrail : trail ≠ []) :
    ∃ left dropped, dropLastBytes (byteSize ext) (front ++ (ext ++ trail)) = front ++ left ∧
      left ++ dropped = ext ++ trail ∧ left ≠ [] := by
  obtain ⟨dropped, hcs, hsize⟩ := dropLastBytes_prefix (byteSize ext) (front ++ (ext ++ trail))
  have hpos := byteSize_pos htrail
  -- What is dropped is smaller than what follows `front`.
  have hless : ∀ more, dropped ≠ more ++ (ext ++ trail) := by
    intro more hmore
    rw [hmore, byteSize_append, byteSize_append] at hsize
    omega
  rcases List.append_eq_append_iff.1 hcs with ⟨left, hshort, hleft⟩ | ⟨more, _, hmore⟩
  · refine ⟨left, dropped, hshort, hleft.symm, ?_⟩
    intro hnil
    rw [hnil] at hleft
    exact hless [] hleft.symm
  · exact absurd hmore (hless more)

/-- The same stem with a shorter extension. -/
theorem Parts.shorten {ext' trail' : List Char}
    (h : Parts cs directory (stem ++ '.' :: ext) trail) (hstem : stem ≠ []) (hext : ext' <+: ext)
    (htrail : Trail trail') (hdots : stem ++ '.' :: ext' ≠ ['.', '.']) :
    Parts (directory ++ ((stem ++ '.' :: ext') ++ trail')) directory (stem ++ '.' :: ext')
      trail' := by
  have hname : stem ++ '.' :: ext' <+: stem ++ '.' :: ext := by
    rw [List.prefix_append_right_inj, List.cons_prefix_cons]
    exact ⟨rfl, hext⟩
  refine ⟨rfl, h.closed, ?_, by simp, ?_, hdots, htrail⟩
  · intro hmem
    exact h.slash_not_mem (hname.subset hmem)
  · intro hdot
    have hlength := congrArg List.length hdot
    have hpos := List.length_pos_iff.2 hstem
    rw [List.length_append, List.length_cons, List.length_singleton] at hlength
    omega

/-- In front of slashes and `.` names, the path keeps its directory part and
    its stem when the extension is dropped. -/
theorem short_of_trail (h : Parts cs directory (stem ++ '.' :: ext) trail) (hstem : stem ≠ [])
    (htrail : trail ≠ []) :
    ∃ ext' trail', ext' <+: ext ∧
      Parts (dropLastBytes (byteSize ext) cs) directory (stem ++ '.' :: ext') trail' := by
  obtain ⟨left, dropped, hshort, hleft, hne⟩ :=
    exists_left (directory ++ (stem ++ ['.'])) ext htrail
  have hcs : cs = directory ++ (stem ++ ['.']) ++ (ext ++ trail) := by
    rw [h.eq_append]
    simp
  rw [hcs, hshort]
  rcases List.append_eq_append_iff.1 hleft with ⟨more, hext, _⟩ | ⟨trail', hleft', htrail'⟩
  · -- The trail is gone, and perhaps the end of the extension.
    have hbegins : left <+: ext := ⟨more, hext.symm⟩
    have hdots : stem ++ '.' :: left ≠ ['.', '.'] := by
      intro hname
      have hlength := congrArg List.length hname
      have hpos := List.length_pos_iff.2 hstem
      have hpos' := List.length_pos_iff.2 hne
      simp only [List.length_append, List.length_cons, List.length_nil] at hlength
      omega
    refine ⟨left, [], hbegins, ?_⟩
    have hparts := h.shorten hstem hbegins .nil hdots
    simpa using hparts
  · -- The extension stays, and perhaps the beginning of the trail.
    have hbegin : Trail trail' := by
      have hwhole := h.trail
      rw [htrail'] at hwhole
      exact hwhole.of_append
    have hbegins : ext <+: ext := ⟨[], List.append_nil ext⟩
    refine ⟨ext, trail', hbegins, ?_⟩
    have hparts := h.shorten hstem hbegins hbegin h.ne_dots
    rw [hleft']
    simpa using hparts

theorem Parts.withoutExtension_whole (h : Parts cs directory name trail)
    (hdot : '.' ∉ name.tail) : withoutExtension cs = cs := by
  unfold withoutExtension
  rw [h.extension?_eq, splitExtension_whole hdot]

theorem Parts.withoutExtension_cut (h : Parts cs directory (stem ++ '.' :: ext) trail)
    (hstem : stem ≠ []) (hext : '.' ∉ ext) :
    withoutExtension cs = dropLastBytes (byteSize ext) cs := by
  unfold withoutExtension
  rw [h.extension?_eq, splitExtension_append hstem hext]

/-- At the very end of a path the dot of the extension stays. -/
theorem Parts.withoutExtension_last (h : Parts cs directory (stem ++ '.' :: ext) [])
    (hstem : stem ≠ []) (hext : '.' ∉ ext) :
    withoutExtension cs = directory ++ (stem ++ ['.']) := by
  have hcs : cs = directory ++ (stem ++ ['.']) ++ ext := by
    rw [h.eq_append]
    simp
  rw [h.withoutExtension_cut hstem hext, hcs, dropLastBytes_append]

/-- Unless the name is `..x`, what is left has the same directory part and the
    same stem. -/
theorem short_of_parts (h : Parts cs directory name trail) (hstem : Stem name stem)
    (hplain : ¬ ∃ x, DoubleDotted name trail x) :
    ∃ name' trail', Parts (withoutExtension cs) directory name' trail' ∧ Stem name' stem := by
  cases hstem with
  | whole hdot =>
    rw [h.withoutExtension_whole hdot]
    exact ⟨name, trail, h, .whole hdot⟩
  | @cut stem ext hstem hext =>
    by_cases htrail : trail = []
    · rw [htrail] at h hplain
      rw [h.withoutExtension_last hstem hext]
      have hdots : stem ++ ['.'] ≠ ['.', '.'] := by
        -- If `..` were left, the name would have been `..` and the extension.
        intro hdots
        have hdots' : stem ++ ['.'] = ['.'] ++ ['.'] := hdots
        have hstem' : stem = ['.'] := List.append_cancel_right hdots'
        apply hplain
        refine ⟨ext, ?_, ?_, hext, rfl⟩
        · rw [hstem']
          rfl
        · intro hnil
          apply h.ne_dots
          rw [hstem', hnil]
          rfl
      have hparts := h.shorten hstem List.nil_prefix .nil hdots
      rw [List.append_nil] at hparts
      exact ⟨_, _, hparts, .cut hstem List.not_mem_nil⟩
    · rw [h.withoutExtension_cut hstem hext]
      obtain ⟨ext', trail', hbegins, hparts⟩ := short_of_trail h hstem htrail
      have hext' : '.' ∉ ext' := fun hmem => hext (hbegins.subset hmem)
      exact ⟨_, trail', hparts, .cut hstem hext'⟩

/-! ## Replacing the extension -/

/-- A path with a file name is cut after its stem and gets the new extension. -/
theorem replaceExtension_of_parts (h : Parts cs directory name trail) (hstem : Stem name stem)
    (hplain : ¬ ∃ x, DoubleDotted name trail x) (ext : List Char) :
    replaceExtension cs ext = directory ++ (stem ++ '.' :: ext) := by
  obtain ⟨name', trail', hshort, hstem'⟩ := short_of_parts h hstem hplain
  have hfile : fileName? (withoutExtension cs) = some name' :=
    fileName?_eq_some_iff.2 ⟨directory, trail', hshort⟩
  unfold replaceExtension
  dsimp only
  rw [hfile]
  dsimp only
  rw [hshort.directoryPart_eq, hstem'.splitExtension_eq, List.append_assoc]

/-- Of a name `..x` at the very end only the two dots are left. -/
theorem replaceExtension_of_doubleDotted {x : List Char} (h : Parts cs directory name trail)
    (hx : DoubleDotted name trail x) (ext : List Char) :
    replaceExtension cs ext = directory ++ ['.', '.'] := by
  have hname : name = ['.'] ++ '.' :: x := hx.eq_append
  have hlast := h
  rw [hname, hx.at_end] at hlast
  have hshort : withoutExtension cs = directory ++ ['.', '.'] :=
    hlast.withoutExtension_last (List.cons_ne_nil _ _) hx.dot_not_mem
  have hsplits : Splits (directory ++ ['.', '.']) directory ['.', '.'] :=
    ⟨rfl, by decide, h.closed⟩
  have hnone : fileName? (directory ++ ['.', '.']) = none := by
    rw [fileName?_of_splits hsplits (by decide) (by decide), if_pos rfl]
  unfold replaceExtension
  dsimp only
  rw [hshort, hnone]

/-- A path that ends in a name keeps its directory part and gets a new name.
    Where there is no stem to be had, what comes out is the directory above. -/
theorem replaceExtension_of_splits (h : Splits cs directory name) (hempty : name ≠ [])
    (hdot : name ≠ ['.']) (ext : List Char) :
    (name ≠ ['.', '.'] ∧
        replaceExtension cs ext = directory ++ ((splitExtension name).1 ++ '.' :: ext)) ∨
      replaceExtension cs ext = directory ++ ['.', '.'] := by
  by_cases hdots : name = ['.', '.']
  · -- There is no file name, so there is nothing to replace.
    right
    have hnone : fileName? cs = none := by
      rw [fileName?_of_splits h hempty hdot, if_pos hdots]
    have hshort : withoutExtension cs = cs := by
      unfold withoutExtension extension?
      rw [hnone]
    unfold replaceExtension
    dsimp only
    rw [hshort, hnone, h.eq_append, hdots]
  · have hparts := h.parts hempty hdot hdots
    by_cases hdotted : ∃ x, DoubleDotted name [] x
    · right
      obtain ⟨x, hx⟩ := hdotted
      exact replaceExtension_of_doubleDotted hparts hx ext
    · left
      obtain ⟨stem, hstem⟩ := exists_stem name
      rw [replaceExtension_of_parts hparts hstem hdotted, hstem.splitExtension_eq]
      exact ⟨hdots, rfl⟩

end Path

end OnePass
