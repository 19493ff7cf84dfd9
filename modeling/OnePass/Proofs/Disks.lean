import OnePass.Files.Tree

/-! # The laws of file trees and disks

    A change of a tree is seen at one place only, and a walk that succeeds
    sees directories only.  So a file that has just been written is found
    again by the path that led to it, and removing it takes back everything
    that writing it did.

    * `FileTree.node?_insert`, `FileTree.node?_erase` : a change at one place.
    * `FileTree.erase_insert` : removing what has been put somewhere.
    * `FileTree.enter_insert_iff` : files do not get in the way of a walk.
    * `Disk.exists_of_target` : where a file can be written.
    * `Disk.locate_write_iff` : paths lead to the same places afterwards.
    * `Disk.remove_of_write` : removing a file that has just been written.
    * `Disk.read_of_write`, `Disk.read_of_write_apart` : what files hold after
      one of them is written. -/

namespace OnePass

/-! ## Trees -/

namespace FileTree

theorem lookup_entry (place : Location) (n : Node) (nodes : List (Location × Node))
    (k : Location) :
    ((place, n) :: nodes).lookup k = if k = place then some n else nodes.lookup k := by
  rw [List.lookup_cons]
  by_cases hk : k = place
  · rw [if_pos hk, beq_iff_eq.2 hk]
  · rw [if_neg hk, beq_eq_false_iff_ne.2 hk]

theorem lookup_replace (nodes : List (Location × Node)) (l : Location) (n : Node)
    (k : Location) :
    (nodes.map fun entry => if entry.1 == l then (l, n) else entry).lookup k =
      if k = l then (nodes.lookup l).map fun _ => n else nodes.lookup k := by
  induction nodes with
  | nil => simp
  | cons entry nodes ih =>
    obtain ⟨place, old⟩ := entry
    rw [List.map_cons, lookup_entry place, lookup_entry place]
    dsimp only
    by_cases hplace : place = l
    · rw [if_pos (beq_iff_eq.2 hplace), lookup_entry, ih, hplace]
      by_cases hk : k = l <;> simp [hk]
    · rw [if_neg (by simpa using hplace), lookup_entry, ih, if_neg (Ne.symm hplace)]
      by_cases hk : k = l
      · rw [if_neg (by rw [hk]; exact Ne.symm hplace), if_pos hk, if_pos hk]
      · rw [if_neg hk, if_neg hk]

theorem lookup_insert (t : FileTree) (l : Location) (n : Node) (k : Location) :
    (t.insert l n).nodes.lookup k = if k = l then some n else t.nodes.lookup k := by
  have hany : t.nodes.any (·.1 == l) = (t.nodes.lookup l).isSome := by
    rw [Bool.eq_iff_iff, List.any_eq_true, List.lookup_isSome_iff]
    simp only [beq_iff_eq]
    exact exists_congr fun entry => and_congr_right' eq_comm
  unfold insert
  rw [hany]
  cases hold : t.nodes.lookup l with
  | some old =>
    -- The place is taken, so the entry for it is replaced.
    rw [Option.isSome_some, if_pos rfl, lookup_replace, hold]
    rfl
  | none =>
    rw [Option.isSome_none, if_neg (by decide), List.lookup_append]
    by_cases hk : k = l
    · rw [if_pos hk, hk, hold]
      simp
    · have hnew : List.lookup k [(l, n)] = none := by
        rw [lookup_entry, if_neg hk, List.lookup_nil]
      rw [if_neg hk, hnew, Option.or_none]

theorem lookup_erase (t : FileTree) (l k : Location) :
    (t.erase l).nodes.lookup k = if k = l then none else t.nodes.lookup k := by
  obtain ⟨nodes⟩ := t
  unfold erase
  dsimp only
  induction nodes with
  | nil => simp
  | cons entry nodes ih =>
    obtain ⟨place, old⟩ := entry
    rw [lookup_entry place]
    by_cases hplace : place = l
    · rw [List.filter_cons_of_neg (by simp [hplace]), ih, hplace]
      by_cases hk : k = l <;> simp [hk]
    · rw [List.filter_cons_of_pos (by simp [hplace]), lookup_entry, ih]
      by_cases hk : k = l
      · rw [if_neg (by rw [hk]; exact Ne.symm hplace), if_pos hk, if_pos hk]
      · rw [if_neg hk, if_neg hk]

theorem node?_root (t : FileTree) : t.node? [] = some .directory :=
  rfl

/-- A change is seen at its own place and nowhere else. -/
theorem node?_insert (t : FileTree) {l : Location} (hl : l ≠ []) (n : Node) (k : Location) :
    (t.insert l n).node? k = if k = l then some n else t.node? k := by
  by_cases hk : k = []
  · rw [hk, node?_root, node?_root, if_neg hl.symm]
  · unfold node?
    rw [if_neg hk, if_neg hk, lookup_insert]

theorem node?_erase (t : FileTree) {l : Location} (hl : l ≠ []) (k : Location) :
    (t.erase l).node? k = if k = l then none else t.node? k := by
  by_cases hk : k = []
  · rw [hk, node?_root, node?_root, if_neg hl.symm]
  · unfold node?
    rw [if_neg hk, if_neg hk, lookup_erase]

/-- Nothing is left of what was put at a place that is then emptied. -/
theorem erase_insert (t : FileTree) (l : Location) (n : Node) :
    (t.insert l n).erase l = t.erase l := by
  obtain ⟨nodes⟩ := t
  unfold insert erase
  dsimp only
  split
  case isTrue =>
    congr 1
    rw [List.filter_map]
    -- An entry for the place goes, replaced or not; the others are kept as they are.
    have hsame : ((fun entry : Location × Node => entry.1 != l) ∘
        fun entry => if (entry.1 == l) = true then (l, n) else entry) =
        fun entry => entry.1 != l := by
      funext entry
      by_cases hentry : entry.1 = l <;> simp [hentry]
    rw [hsame]
    refine (List.map_congr_left fun entry hmem => ?_).trans (List.map_id _)
    have hne := (List.mem_filter.1 hmem).2
    exact if_neg (by simpa using hne)
  case isFalse => simp

/-! ## Walks -/

theorem requireDirectory_eq_ok_iff {t : FileTree} {l : Location} :
    t.requireDirectory l = .ok () ↔ t.node? l = some .directory := by
  unfold requireDirectory
  split <;> simp_all

/-- A walk looks at nothing but which places are directories. -/
theorem enter_mono {t t' : FileTree}
    (h : ∀ l, t.node? l = some .directory → t'.node? l = some .directory)
    {l l' : Location} {names : List String} (hwalk : t.enter l names = .ok l') :
    t'.enter l names = .ok l' := by
  have hkept : ∀ l, t.requireDirectory l = .ok () → t'.requireDirectory l = .ok () := by
    intro l hl
    rw [requireDirectory_eq_ok_iff] at hl ⊢
    exact h l hl
  induction names generalizing l with
  | nil =>
    unfold enter at hwalk ⊢
    cases hl : t.requireDirectory l with
    | error e => simp [hl, Except.map] at hwalk
    | ok =>
      rw [hl] at hwalk
      rw [hkept l hl]
      exact hwalk
  | cons name names ih =>
    unfold enter at hwalk ⊢
    cases hl : t.requireDirectory l with
    | error e => simp [hl] at hwalk
    | ok =>
      rw [hl] at hwalk
      rw [hkept l hl]
      exact ih hwalk

/-- A walk ends in a directory. -/
theorem node?_of_enter {t : FileTree} {l l' : Location} {names : List String}
    (hwalk : t.enter l names = .ok l') : t.node? l' = some .directory := by
  induction names generalizing l with
  | nil =>
    unfold enter at hwalk
    cases hl : t.requireDirectory l with
    | error e => simp [hl, Except.map] at hwalk
    | ok =>
      rw [hl] at hwalk
      cases hwalk
      exact requireDirectory_eq_ok_iff.1 hl
  | cons name names ih =>
    unfold enter at hwalk
    split at hwalk
    case h_1 => exact ih hwalk
    case h_2 => cases hwalk

/-- A file that is put where there is no directory leaves the directories as
    they are. -/
theorem directory_insert_iff {t : FileTree} {k : Location}
    (hk : t.node? k ≠ some .directory) (content : List UInt8) (l : Location) :
    (t.insert k (.file content)).node? l = some .directory ↔ t.node? l = some .directory := by
  have hroot : k ≠ [] := by
    rintro rfl
    exact hk t.node?_root
  rw [node?_insert t hroot]
  by_cases hl : l = k
  · rw [if_pos hl, hl]
    exact iff_of_false (by simp) hk
  · rw [if_neg hl]

/-- Files do not get in the way of a walk, and do not open a new one. -/
theorem enter_insert_iff {t : FileTree} {k : Location} (hk : t.node? k ≠ some .directory)
    (content : List UInt8) {l l' : Location} {names : List String} :
    (t.insert k (.file content)).enter l names = .ok l' ↔ t.enter l names = .ok l' :=
  ⟨enter_mono fun l => (directory_insert_iff hk content l).1,
    enter_mono fun l => (directory_insert_iff hk content l).2⟩

end FileTree

/-! ## Disks -/

/-- A name that leads down. -/
def Location.IsPlain (name : String) : Prop :=
  name ≠ "" ∧ name ≠ "." ∧ name ≠ ".."

theorem Location.step_of_plain (l : Location) {name : String} (h : IsPlain name) :
    Location.step l name = l ++ [name] := by
  obtain ⟨hempty, hdot, hdots⟩ := h
  simp [Location.step, hempty, hdot, hdots]

/-- If no empty names are dropped from the end, then the last name is not
    empty. -/
theorem eq_append_of_length_dropWhile {names : List String} {name : String}
    (hlast : (names.reverse.dropWhile (· == "")).reverse.getLast? = some name)
    (hlength : (names.reverse.dropWhile (· == "")).reverse.length = names.length) :
    name ≠ "" ∧ names = (names.reverse.dropWhile (· == "")).reverse.dropLast ++ [name] := by
  have hsame : names.reverse.dropWhile (· == "") = names.reverse := by
    refine (List.dropWhile_suffix _).eq_of_length ?_
    rwa [List.length_reverse] at hlength ⊢
  constructor
  · have hhead := List.head?_dropWhile_not (· == "") names.reverse
    rw [List.getLast?_reverse] at hlast
    rw [hlast] at hhead
    exact beq_eq_false_iff_ne.1 hhead
  · rw [hsame, List.reverse_reverse] at hlast ⊢
    obtain ⟨front, rfl⟩ := List.getLast?_eq_some_iff.1 hlast
    rw [List.dropLast_concat]

namespace Disk

/-- A path leads to a name in the directory that the names before it lead
    to. -/
theorem locate_eq_ok_iff {d : Disk} {path : String} {l : Location} :
    d.locate path = .ok l ↔
      path ≠ "" ∧ ∃ directory,
        d.tree.enter (d.start path) (pathNames path).dropLast = .ok directory ∧
        directory.step ((pathNames path).getLastD "") = l := by
  unfold locate
  by_cases hpath : path = ""
  · simp [hpath]
  · rw [if_neg hpath]
    dsimp only
    cases d.tree.enter (d.start path) (pathNames path).dropLast with
    | error e => simp [Except.map]
    | ok directory => simp [Except.map, hpath]

theorem read_eq_ok_iff {d : Disk} {path : String} {content : List UInt8} :
    d.read path = .ok content ↔
      ∃ l, d.locate path = .ok l ∧ d.tree.node? l = some (.file content) := by
  unfold read
  cases d.locate path with
  | error e => simp
  | ok l =>
    dsimp only
    split <;> simp_all

/-- A file is written under a plain name in a directory, where there is no
    directory of that name. -/
theorem exists_of_target {d : Disk} {path : String} {l : Location}
    (h : d.target path = .ok l) :
    d.locate path = .ok l ∧ Location.IsPlain ((pathNames path).getLastD "") ∧ l ≠ [] ∧
      d.tree.node? l ≠ some .directory := by
  -- Every test that `target` makes either refuses or leaves one more fact.
  unfold target at h
  by_cases hpath : path = ""
  · rw [if_pos hpath] at h
    cases h
  rw [if_neg hpath] at h
  dsimp only at h
  split at h
  case h_1 => cases h
  case h_2 directory henter =>
    split at h
    case h_1 => cases h
    case h_2 name hname =>
      split at h
      case isTrue => cases h
      case isFalse hplain =>
        split at h
        case h_1 => cases h
        case h_2 hnode =>
          cases h
          obtain ⟨hdot, hdots, hlength⟩ := by simpa only [not_or, Classical.not_not] using hplain
          obtain ⟨hempty, hnames⟩ := eq_append_of_length_dropWhile hname hlength
          have hplain : Location.IsPlain name := ⟨hempty, hdot, hdots⟩
          have hlast : (pathNames path).getLastD "" = name := by
            rw [hnames, List.getLastD_concat]
          refine ⟨locate_eq_ok_iff.2 ⟨hpath, directory, ?_, ?_⟩, ?_, by simp, hnode⟩
          · rw [hnames, List.dropLast_concat]
            exact henter
          · rw [hlast, Location.step_of_plain directory hplain]
          · rw [hlast]
            exact hplain

theorem write_eq_ok_iff {d d' : Disk} {path : String} {content : List UInt8} :
    d.write path content = .ok d' ↔
      ∃ l, d.target path = .ok l ∧ d' = { d with tree := d.tree.insert l (.file content) } := by
  unfold write
  cases d.target path with
  | error e => simp [Except.map]
  | ok l => simp [Except.map, eq_comm]

/-- Writing a file does not change where paths lead. -/
theorem locate_write_iff {d d' : Disk} {path : String} {content : List UInt8}
    (h : d.write path content = .ok d') {other : String} {l : Location} :
    d'.locate other = .ok l ↔ d.locate other = .ok l := by
  obtain ⟨k, htarget, rfl⟩ := write_eq_ok_iff.1 h
  obtain ⟨_, _, _, hnode⟩ := exists_of_target htarget
  -- Where a walk starts is not a matter of the tree.
  have hstart : start { d with tree := d.tree.insert k (.file content) } other = d.start other :=
    rfl
  rw [locate_eq_ok_iff, locate_eq_ok_iff, hstart]
  simp only [FileTree.enter_insert_iff hnode]

/-- A written file is found where the path leads, and nothing else changes. -/
theorem node?_write {d d' : Disk} {path : String} {content : List UInt8}
    (h : d.write path content = .ok d') :
    ∃ l, d.locate path = .ok l ∧
      ∀ k, d'.tree.node? k = if k = l then some (.file content) else d.tree.node? k := by
  obtain ⟨l, htarget, rfl⟩ := write_eq_ok_iff.1 h
  obtain ⟨hlocate, _, hroot, _⟩ := exists_of_target htarget
  exact ⟨l, hlocate, d.tree.node?_insert hroot _⟩

/-- A file that has just been written can be removed, and nothing is left of
    having written it. -/
theorem remove_of_write {d d' : Disk} {path : String} {content : List UInt8}
    (h : d.write path content = .ok d') :
    ∃ l, l ≠ [] ∧ d.locate path = .ok l ∧
      d'.remove path = .ok { d with tree := d.tree.erase l } := by
  have hafter : ∀ l, d.locate path = .ok l → d'.locate path = .ok l :=
    fun l => (locate_write_iff h).2
  obtain ⟨l, htarget, rfl⟩ := write_eq_ok_iff.1 h
  obtain ⟨hbefore, _, hroot, _⟩ := exists_of_target htarget
  have hfile : (d.tree.insert l (.file content)).node? l = some (.file content) := by
    rw [FileTree.node?_insert _ hroot, if_pos rfl]
  refine ⟨l, hroot, hbefore, ?_⟩
  unfold remove
  rw [hafter l hbefore]
  dsimp only
  rw [hfile]
  dsimp only
  rw [FileTree.erase_insert]

/-! ## Paths that lead to one place -/

/-- Both paths lead to the same place. -/
def Meet (d : Disk) (path other : String) : Prop :=
  ∃ l, d.locate path = .ok l ∧ d.locate other = .ok l

theorem meet_write_iff {d d' : Disk} {path : String} {content : List UInt8}
    (h : d.write path content = .ok d') {p q : String} : d'.Meet p q ↔ d.Meet p q := by
  unfold Meet
  simp only [locate_write_iff h]

theorem read_of_write {d d' : Disk} {path : String} {content : List UInt8}
    (h : d.write path content = .ok d') : d'.read path = .ok content := by
  obtain ⟨l, hlocate, hnode⟩ := node?_write h
  refine read_eq_ok_iff.2 ⟨l, (locate_write_iff h).2 hlocate, ?_⟩
  rw [hnode, if_pos rfl]

/-- A file that another path leads to is left alone. -/
theorem read_of_write_apart {d d' : Disk} {path other : String} {content : List UInt8}
    (h : d.write path content = .ok d') (hapart : ¬ d.Meet path other) {bs : List UInt8}
    (hread : d.read other = .ok bs) : d'.read other = .ok bs := by
  obtain ⟨l, hlocate, hnode⟩ := node?_write h
  obtain ⟨k, hother, hfile⟩ := read_eq_ok_iff.1 hread
  have hne : k ≠ l := by
    rintro rfl
    exact hapart ⟨k, hlocate, hother⟩
  refine read_eq_ok_iff.2 ⟨k, (locate_write_iff h).2 hother, ?_⟩
  rw [hnode, if_neg hne, hfile]

/-! ## Changes -/

theorem attempt_of_ok {change : Disk → Except FileFault Disk} {d d' : Disk}
    (h : change d = .ok d') : (attempt change).run d = (.ok (), d') := by
  simp only [attempt, StateT.run, h]

theorem attempt_of_error {change : Disk → Except FileFault Disk} {d : Disk} {e : FileFault}
    (h : change d = .error e) : (attempt change).run d = (.error e, d) := by
  simp only [attempt, StateT.run, h]

end Disk

end OnePass
