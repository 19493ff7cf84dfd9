import OnePass.Proofs.Resolution

/-! # All names in one table

    `Symbols` holds the labels alone and asks about the names that are taken
    from the start before it looks there.  One ordered table can hold both: then
    it is only by looking at what a name means so far that a request to bind a
    label is kept from replacing a register or a mnemonic.  The two give the
    same answers.

    * `NameTable.define` : bind a label in the one table.
    * `NameTable.ofSymbols` : the one table for a table of labels.
    * `NameTable.define_ofSymbols` : one request does the same to both. -/

namespace OnePass

/-- The address that a label stands for. -/
def Meaning.address? : Meaning → Option Nat
  | address n => some n
  | _         => none

/-- Names and their meanings, in the order in which the names came in. -/
structure NameTable where
  bindings : List (String × Meaning)
  deriving DecidableEq, Repr

namespace NameTable

/-- The names that are taken from the start. -/
def start : NameTable where
  bindings :=
    (List.range 16).map (fun n => ((Register.ofNibble n).name, .register (.ofNibble n))) ++
      Mnemonic.all.map (fun m => (m.name, .operation m)) ++
      [(labelDirectiveName, .labelDirective)]

def get? (u : NameTable) (name : String) : Option Meaning :=
  (u.bindings.find? (·.1 == name)).map (·.2)

/-- Give a name a meaning.  A name that is there keeps its place. -/
def insert (u : NameTable) (name : String) (m : Meaning) : NameTable :=
  if u.bindings.any (·.1 == name) then
    ⟨u.bindings.map fun b => if b.1 == name then (b.1, m) else b⟩
  else
    ⟨u.bindings ++ [(name, m)]⟩

/-- Bind a label and tell the address it had before, unless the name means
    something that is fixed. -/
def define (u : NameTable) (name : String) (address : Nat) :
    Except Fault (Option Nat × NameTable) :=
  if (u.get? name).any Meaning.isPredeclared then
    .error (.predeclared name)
  else
    .ok ((u.get? name).bind Meaning.address?, u.insert name (.address address))

/-- The address of a label. -/
def address? (u : NameTable) (name : String) : Option Nat :=
  (u.get? name).bind Meaning.address?

/-- The labels among the names. -/
def labels (u : NameTable) : List Label :=
  u.bindings.filterMap fun b => b.2.address?.map (⟨b.1, ·⟩)

/-- The one table for a table of labels. -/
def ofSymbols (t : Symbols) : NameTable where
  bindings := start.bindings ++ t.labels.map fun l => (l.name, .address l.address)

variable {t : Symbols} {name : String}

/-! ## Looking up -/

theorem map_fst_start : start.bindings.map (·.1) = predeclaredNames := by
  decide

/-- No binding of the start is for a name that is free. -/
theorem beq_of_mem_start (h : name ∉ predeclaredNames) {b : String × Meaning}
    (hb : b ∈ start.bindings) : (b.1 == name) = false := by
  rw [beq_eq_false_iff_ne]
  intro heq
  rw [← map_fst_start] at h
  exact h (heq ▸ List.mem_map_of_mem hb)

theorem get?_start (name : String) : start.get? name = predeclared? name := by
  by_cases h : name ∈ predeclaredNames
  · have hall : ∀ name ∈ predeclaredNames, start.get? name = predeclared? name := by decide
    exact hall name h
  · have hnone : start.bindings.find? (·.1 == name) = none := by
      rw [List.find?_eq_none]
      intro b hb
      simp [beq_of_mem_start h hb]
    rw [predeclared?_eq_none_iff.2 h, get?, hnone]
    rfl

/-- A name means the same in both tables. -/
theorem get?_ofSymbols (t : Symbols) (name : String) :
    (ofSymbols t).get? name = t.meaning? name := by
  have hstart := get?_start name
  unfold get? at hstart ⊢
  rw [ofSymbols, List.find?_append, Option.map_or, hstart, List.find?_map, Symbols.meaning?,
    Symbols.address?, Option.map_map, Option.map_map]
  cases predeclared? name <;> rfl

theorem address?_ofSymbols_eq_some_iff {n : Nat} :
    (ofSymbols t).address? name = some n ↔
      name ∉ predeclaredNames ∧ t.address? name = some n := by
  rw [← predeclared?_eq_none_iff, ← Symbols.meaning?_eq_address_iff, address?, get?_ofSymbols]
  cases t.meaning? name with
  | none => simp
  | some m => cases m <;> simp [Meaning.address?]

theorem labels_ofSymbols (t : Symbols) : (ofSymbols t).labels = t.labels := by
  have hstart : start.labels = [] := by decide
  unfold labels at hstart ⊢
  rw [ofSymbols, List.filterMap_append, hstart, List.nil_append, List.filterMap_map]
  exact List.filterMap_some

/-! ## Binding -/

/-- Binding a label leaves the names in front of the labels alone. -/
theorem insert_ofSymbols (h : name ∉ predeclaredNames) (n : Nat) :
    (ofSymbols t).insert name (.address n) = ofSymbols (t.bind name n) := by
  have hany : (ofSymbols t).bindings.any (·.1 == name) = t.labels.any (·.name == name) := by
    have hstart : start.bindings.any (·.1 == name) = false := by
      rw [List.any_eq_false]
      intro b hb
      simp [beq_of_mem_start h hb]
    rw [ofSymbols, List.any_append, hstart, Bool.false_or, List.any_map]
    rfl
  have hkept : (start.bindings.map fun b => if b.1 == name then (b.1, .address n) else b) =
      start.bindings := by
    refine (List.map_congr_left ?_).trans (List.map_id _)
    intro b hb
    rw [beq_of_mem_start h hb]
    rfl
  unfold insert Symbols.bind
  rw [hany]
  by_cases hbound : t.labels.any (·.name == name) = true
  · have hlabel : ∀ l : Label,
        (if l.name == name then (l.name, .address n) else (l.name, Meaning.address l.address)) =
          ((if l.name == name then { l with address := n } else l).name,
            .address (if l.name == name then { l with address := n } else l).address) := by
      intro l
      by_cases hname : (l.name == name) = true
      · rw [if_pos hname, if_pos hname]
      · rw [if_neg hname, if_neg hname]
    rw [if_pos hbound, if_pos hbound, ofSymbols, ofSymbols, List.map_append, hkept,
      List.map_map, List.map_map]
    simp only [Function.comp_def, hlabel]
  · rw [if_neg hbound, if_neg hbound, ofSymbols, ofSymbols, List.map_append, List.append_assoc]
    rfl

/-- One request to bind a label does the same to both tables. -/
theorem define_ofSymbols (t : Symbols) (name : String) (n : Nat) :
    (ofSymbols t).define name n = (t.define name n).map fun a => (a.1, ofSymbols a.2) := by
  unfold define
  rw [get?_ofSymbols]
  by_cases h : name ∈ predeclaredNames
  · obtain ⟨m, hm⟩ := Option.isSome_iff_exists.1 (isSome_predeclared?_iff.2 h)
    have hfixed : m.isPredeclared = true := by
      cases m with
      | address k => exact absurd hm (predeclared?_ne_address name k)
      | _ => rfl
    have hmeaning := (Symbols.meaning?_eq_predeclared_iff (t := t) hfixed).2 hm
    rw [hmeaning, Option.any_some, if_pos hfixed, Symbols.define_of_taken h]
    rfl
  · have hmeaning : t.meaning? name = (t.address? name).map .address := by
      rw [Symbols.meaning?, predeclared?_eq_none_iff.2 h]
    rw [Symbols.define_of_free h, hmeaning, insert_ofSymbols h]
    cases t.address? name <;> rfl

end NameTable

end OnePass
