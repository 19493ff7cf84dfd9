import OnePass.Proofs.Lockstep

/-! # Code in front of other code

    Put operations in front of a statement list.  They bind no label, so all
    that the statements behind them can notice is that they start at a higher
    address.  The run with the operations in front is compared with the run
    without them.

    * `Symbols.shift` : all labels moved up.
    * `Moved` : an entry in both runs.  Where an integer is given as a label,
      the two differ by the number of operations in front.
    * `Prepended` : what the two runs have in common.
    * `Assembler.executeAll_prepend` : the two runs. -/

namespace OnePass

/-! ## Symbols -/

/-- Move a label up by `k`.  Addresses are counted modulo `addressSpan`. -/
def Label.shift (k : Nat) (l : Label) : Label :=
  { l with address := (l.address + k) % addressSpan }

namespace Symbols

/-- Move all labels up by `k`. -/
def shift (t : Symbols) (k : Nat) : Symbols :=
  ⟨t.labels.map (Label.shift k)⟩

variable {t : Symbols}

theorem scope_shift (t : Symbols) (k : Nat) : (t.shift k).scope = t.scope := by
  unfold scope shift
  rw [List.map_map]
  rfl

theorem name_shift (k : Nat) (name : String) (l : Label) :
    ((l.shift k).name == name) = (l.name == name) := rfl

theorem address?_shift (t : Symbols) (k : Nat) (name : String) :
    (t.shift k).address? name = (t.address? name).map fun n => (n + k) % addressSpan := by
  unfold shift
  rw [address?_map (name_shift k name), address?, Option.map_map]
  rfl

theorem bind_shift (t : Symbols) (k : Nat) (name : String) (n : Nat) :
    (t.shift k).bind name ((n + k) % addressSpan) = (t.bind name n).shift k :=
  bind_map (name_shift k name) t (fun _ => rfl) rfl

/-- A binding changes one address and no other. -/
theorem mem_labels_bind {name : String} {n : Nat} {l : Label} (h : l ∈ (t.bind name n).labels) :
    l.address = n ∨ l ∈ t.labels := by
  unfold bind at h
  by_cases hbound : t.labels.any (·.name == name) = true
  · rw [if_pos hbound] at h
    obtain ⟨l₀, hl₀, hl⟩ := List.mem_map.1 h
    by_cases hname : (l₀.name == name) = true
    · rw [if_pos hname] at hl
      rw [← hl]
      exact .inl rfl
    · rw [if_neg hname] at hl
      rw [← hl]
      exact .inr hl₀
  · rw [if_neg hbound] at h
    rcases List.mem_append.1 h with hold | hnew
    · exact .inr hold
    · rw [List.mem_singleton.1 hnew]
      exact .inl rfl

end Symbols

/-! ## Operands -/

/-- The operand of an argument when all labels move up by `k`.  A register
    stays, and so does a literal. -/
def Operand.move (k : Nat) (a : Argument) : Operand → Operand
  | register r => register r
  | integer v  =>
    match a with
    | .name _ => integer (v + k)
    | _       => integer v

/-- `Moved k st e e'`: both entries come from the operation `st`.  They are
    built from the same operands, except that in `e'` an integer that is given
    as a label is greater by `k` before it goes into its field.  What the field
    in `e` cuts off has no influence on the field in `e'`. -/
structure Moved (k : Nat) (st : Statement) (e e' : Entry) : Prop where
  origin_eq : e.origin = st.position
  origin_eq' : e'.origin = st.position
  built : ∃ (m : Mnemonic) (os : List Operand) (lost lost' : Option Overflow),
    st.name = m.name ∧ os.length = st.arguments.length ∧
    Instruction.build m os = some (e.instruction, lost) ∧
    Instruction.build m (List.zipWith (Operand.move k) st.arguments os) =
      some (e'.instruction, lost')

namespace Symbols

variable {t : Symbols} {k : Nat}

/-- No field is wider than an address, so it does not matter for a field that
    addresses wrap around. -/
theorem ofNat_mod_addressSpan {w : Nat} (hw : w ≤ 32) (n : Nat) :
    BitVec.ofNat w (n % addressSpan) = BitVec.ofNat w n := by
  have hdvd : 2 ^ w ∣ addressSpan := by
    show 2 ^ w ∣ 2 ^ 32
    exact Nat.pow_dvd_pow 2 hw
  apply BitVec.eq_of_toNat_eq
  rw [BitVec.toNat_ofNat, BitVec.toNat_ofNat, Nat.mod_mod_of_dvd n hdvd]

theorem integer_shift {a : Argument} {n n' : Nat} (h : t.integer a = .ok n)
    (h' : (t.shift k).integer a = .ok n') :
    ∃ v, Operand.move k a (.integer n) = .integer v ∧
      ∀ w ≤ 32, BitVec.ofNat w n' = BitVec.ofNat w v := by
  rcases integer_eq_ok_iff.1 h with rfl | ⟨name, rfl, hfree, hn⟩
  · cases h'
    exact ⟨n, rfl, fun w _ => rfl⟩
  · refine ⟨n + k, rfl, fun w hw => ?_⟩
    have hn' : n' = (n + k) % addressSpan := by
      rcases integer_eq_ok_iff.1 h' with hnumber | ⟨name', hname, _, hn'⟩
      · cases hnumber
      · cases hname
        rw [address?_shift, hn] at hn'
        cases hn'
        rfl
    rw [hn', ofNat_mod_addressSpan hw]

/-- The instructions of one operation before and after the move. -/
theorem Built.moved (pos : Position) {m : Mnemonic} {args : List Argument} {i i' : Instruction}
    {lost lost' : Option Overflow} (h : t.Built m args i lost)
    (h' : (t.shift k).Built m args i' lost') :
    Moved k ⟨pos, m.name, args⟩ ⟨pos, i⟩ ⟨pos, i'⟩ := by
  -- One case for each mnemonic; its operands are read off the first run.
  refine ⟨rfl, rfl, m, ?_⟩
  cases h with
  | @lri a b dest n ha hb =>
    cases h' with
    | lri ha' hb' =>
      obtain ⟨v, hv, hfield⟩ := integer_shift hb hb'
      refine ⟨[.register dest, .integer n], _, overflow? 8 v, rfl, rfl,
        Instruction.build_lri dest n, ?_⟩
      show Instruction.build .lri [.register dest, Operand.move k b (.integer n)] = _
      rw [hv, register_unique ha ha', hfield 8 (by decide), Instruction.build_lri]
  | @move a b src dest ha hb =>
    cases h' with
    | move ha' hb' =>
      refine ⟨[.register src, .register dest], _, none, rfl, rfl, rfl, ?_⟩
      rw [register_unique ha ha', register_unique hb hb']
      rfl
  | @load a b reg n ha hb =>
    cases h' with
    | load ha' hb' =>
      obtain ⟨v, hv, hfield⟩ := integer_shift hb hb'
      refine ⟨[.register reg, .integer n], _, overflow? 8 v, rfl, rfl,
        Instruction.build_load reg n, ?_⟩
      show Instruction.build .load [.register reg, Operand.move k b (.integer n)] = _
      rw [hv, register_unique ha ha', hfield 8 (by decide), Instruction.build_load]
  | @add a b c src1 src2 dest ha hb hc =>
    cases h' with
    | add ha' hb' hc' =>
      refine ⟨[.register src1, .register src2, .register dest], _, none, rfl, rfl, rfl, ?_⟩
      rw [register_unique ha ha', register_unique hb hb', register_unique hc hc']
      rfl
  | @jmp a n ha =>
    cases h' with
    | jmp ha' =>
      obtain ⟨v, hv, hfield⟩ := integer_shift ha ha'
      refine ⟨[.integer n], _, overflow? 12 v, rfl, rfl, Instruction.build_jmp n, ?_⟩
      show Instruction.build .jmp [Operand.move k a (.integer n)] = _
      rw [hv, hfield 12 (by decide), Instruction.build_jmp]

end Symbols

/-! ## The code in front -/

namespace Assembler

variable {q : Assembly} {front : List Statement}

/-- Operations bind no label, and each of them takes up one address.  The
    relation says nothing about statements of which some are no operations. -/
def StraightLine (ss : List Statement) (s : Assembly) : Prop :=
  (∀ st ∈ ss, st.isOperation = true) → s.symbols = {} ∧ s.image.size = ss.length

theorem straightLine_step {before : List Statement} {st : Statement} {s s' : Assembly}
    (h : StraightLine before s) (hone : Executes s st s') :
    StraightLine (before ++ [st]) s' := by
  intro hops
  obtain ⟨hsymbols, hsize⟩ := h fun st hst => hops st (List.mem_append_left _ hst)
  have hop := hops st (List.mem_append_right _ (List.mem_singleton_self _))
  cases hone with
  | @operation pos m args i lost hbuilt =>
    refine ⟨hsymbols, ?_⟩
    show (s.image.push ⟨pos, i⟩).size = _
    rw [Image.size_push, hsize, List.length_append]
    rfl
  | @label pos name hfree =>
    have hlabel := Denotation.isOperation_label pos [.text name]
    rw [hlabel] at hop
    cases hop

theorem straightLine_of_run (hrun : executeAll front {} = .ok () q) : StraightLine front q := by
  have hstart : StraightLine [] {} := fun _ => ⟨rfl, rfl⟩
  exact executeAll_invariant straightLine_step hstart hrun

/-! ## Labels point into the image -/

/-- No label is bound to an address beyond the next one. -/
def LabelsWithin (s : Assembly) : Prop :=
  ∀ l ∈ s.symbols.labels, l.address ≤ s.image.size

theorem labelsWithin_step {st : Statement} {s s' : Assembly} (h : LabelsWithin s)
    (hone : Executes s st s') : LabelsWithin s' := by
  intro l hl
  cases hone with
  | @operation pos m args i lost hbuilt =>
    have hold : l.address ≤ s.image.size := h l hl
    show l.address ≤ (s.image.push ⟨pos, i⟩).size
    rw [Image.size_push]
    omega
  | @label pos name hfree =>
    show l.address ≤ s.image.size
    rcases Symbols.mem_labels_bind hl with hnew | hold
    · rw [hnew]
      exact Nat.mod_le ..
    · exact h l hold

theorem labelsWithin_of_run {ss : List Statement} {s : Assembly}
    (hrun : executeAll ss {} = .ok () s) : LabelsWithin s := by
  have hstart : LabelsWithin {} := by
    intro l hl
    cases hl
  exact @executeAll_invariant (fun _ s => LabelsWithin s) labelsWithin_step [] _ _ _ hstart hrun

/-! ## The two runs -/

/-- What a run from the start and a run from `q`, where `k` operations stand in
    front, have in common after the statements `ss`. -/
structure Relocated (k : Nat) (q : Assembly) (ss : List Statement) (s s' : Assembly) : Prop where
  symbols_eq : s'.symbols = s.symbols.shift k
  grown : Grown (Moved k) {} q ss s s'

variable {k : Nat} {s s' t t' : Assembly} {before : List Statement} {st : Statement}

theorem Relocated.here_eq (h : Relocated k q before s s') (hk : q.image.size = k) :
    s'.image.here = (s.image.here + k) % addressSpan := by
  rw [Image.here, Image.here, h.grown.size_add, hk, Nat.mod_add_mod]

/-- A statement that succeeds in both runs keeps them together. -/
theorem relocated_step (hk : q.image.size = k) (h : Relocated k q before s s')
    (hone : Executes s st t) (hone' : Executes s' st t') :
    Relocated k q (before ++ [st]) t t' := by
  cases hone with
  | @operation pos m args i lost hbuilt =>
    obtain ⟨i', lost', hbuilt', rfl⟩ := hone'.of_operation rfl
    rw [h.symbols_eq] at hbuilt'
    have hop := Denotation.isOperation_mnemonic pos m args
    have hmoved := Symbols.Built.moved pos hbuilt hbuilt'
    exact ⟨h.symbols_eq, h.grown.operation hop hmoved rfl rfl⟩
  | @label pos name hfree =>
    have hop := Denotation.isOperation_label pos [.text name]
    rw [hone'.of_label]
    refine ⟨?_, h.grown.other hop rfl rfl⟩
    show s'.symbols.bind name s'.image.here = (s.symbols.bind name s.image.here).shift k
    rw [h.symbols_eq, h.here_eq hk, Symbols.bind_shift]

/-- Whether a statement is accepted, and why not, depends on the names of the
    labels only, and these are the same in both runs. -/
theorem lockstep_relocated (hk : q.image.size = k) (h : Relocated k q before s s') :
    Lockstep Eq (Relocated k q (before ++ [st])) st st s s' := by
  have hscope : s'.symbols.scope = s.symbols.scope := by
    rw [h.symbols_eq, Symbols.scope_shift]
  apply lockstep_of_typing
  · intro hwell
    rwa [hscope]
  · intro f hill
    rw [← hscope] at hill
    exact ⟨f, hill, rfl⟩
  · intro t t' hone hone'
    exact relocated_step hk h hone hone'

/-- What the run of `ss` alone, which ends in `p`, and the run with `k`
    operations in front of it, which lead to `q`, have in common.  As long as
    addresses do not wrap around, each label is bound to an address that is
    greater by `k`. -/
structure Prepended (k : Nat) (q : Assembly) (ss : List Statement) (p s : Assembly) : Prop where
  grown : Grown (Moved k) {} q ss p s
  labels_eq : s.image.size < addressSpan →
    s.symbols.labels = p.symbols.labels.map fun l => { l with address := l.address + k }

theorem Relocated.prepended {ss : List Statement} {p : Assembly} (hk : q.image.size = k)
    (h : Relocated k q ss p s) (hrun : executeAll ss {} = .ok () p) : Prepended k q ss p s := by
  refine ⟨h.grown, fun hlt => ?_⟩
  have hsize := h.grown.size_add
  rw [h.symbols_eq]
  refine List.map_congr_left fun l hl => ?_
  -- The label lies within its image, and so does the moved one.
  have hwithin := labelsWithin_of_run hrun l hl
  have hbelow : l.address + k < addressSpan := by omega
  show ({ l with address := (l.address + k) % addressSpan } : Label) = _
  rw [Nat.mod_eq_of_lt hbelow]

/-- Put operations that run through in front of a statement list.  Then it runs
    through exactly if it does so alone, and otherwise it breaks off at the same
    statement with the same fault.  In both cases its entries follow those of
    the operations in front, with the integers that are given as labels moved
    up by the number of these operations, and so are the labels themselves. -/
theorem executeAll_prepend (hops : ∀ st ∈ front, st.isOperation = true)
    (hrun : executeAll front {} = .ok () q) (ss : List Statement) :
    (∃ p s, executeAll ss {} = .ok () p ∧ executeAll (front ++ ss) {} = .ok () s ∧
      Prepended front.length q ss p s) ∨
    ∃ n e p s, executeAll ss {} = .error e p ∧ executeAll (front ++ ss) {} = .error e s ∧
      BreaksOff ss {} n e p ∧ BreaksOff (front ++ ss) {} (front.length + n) e s ∧
      Prepended front.length q (ss.take n) p s := by
  obtain ⟨hsymbols, hk⟩ := straightLine_of_run hrun hops
  have hstart : Relocated front.length q [] {} q := ⟨hsymbols, grown_start⟩
  have hss : List.Forall₂ Eq ss ss := List.forall₂_refl ss
  have step : ∀ {before : List Statement} {st st' : Statement} {s s' : Assembly},
      st = st' → Relocated front.length q before s s' →
      Lockstep Eq (Relocated front.length q (before ++ [st])) st st' s s' := by
    intro before st st' s s' hst h
    subst hst
    exact lockstep_relocated hk h
  rcases executeAll_lockstep step hss hstart with
    ⟨p, s, hp, hs, h⟩ | ⟨n, e, e', p, s, hp, hs, rfl, h⟩
  · refine .inl ⟨p, s, hp, ?_, h.prepended hk hp⟩
    rw [executeAll_append hrun]
    exact hs
  · have hs' := hs.append hrun
    refine .inr ⟨n, e, p, s, ?_, ?_, hp, hs', h.prepended hk hp.before⟩
    · exact executeAll_eq_error_iff.2 ⟨n, hp⟩
    · exact executeAll_eq_error_iff.2 ⟨front.length + n, hs'⟩

/-- A `load` from a label that is declared twice.  With 256 operations in front
    its address no longer fits the field.  Then a jump to an unknown label. -/
theorem executeAll_prepend_far :
    let front : List Statement :=
      List.replicate 256 ⟨⟨"t.s", 1⟩, "add", [.name "r1", .name "r2", .name "r3"]⟩
    let ss : List Statement :=
      [⟨⟨"t.s", 2⟩, "label", [.text "top"]⟩,
       ⟨⟨"t.s", 3⟩, "load", [.name "r2", .name "top"]⟩,
       ⟨⟨"t.s", 4⟩, "label", [.text "top"]⟩,
       ⟨⟨"t.s", 5⟩, "jmp", [.name "top"]⟩]
    let broken : List Statement := ss ++ [⟨⟨"t.s", 6⟩, "jmp", [.name "nowhere"]⟩]
    (∃ q p s, executeAll ss {} = .ok () p ∧ executeAll (front ++ ss) {} = .ok () s ∧
      Prepended 256 q ss p s ∧
      p.symbols.labels = [⟨"top", 1⟩] ∧ s.symbols.labels = [⟨"top", 257⟩]) ∧
    ∃ p s, executeAll broken {} = .error ⟨⟨"t.s", 6⟩, .undefined "nowhere"⟩ p ∧
      executeAll (front ++ broken) {} = .error ⟨⟨"t.s", 6⟩, .undefined "nowhere"⟩ s := by
  intro front ss broken
  have hops : ∀ st ∈ front, st.isOperation = true := by
    intro st hst
    rw [List.eq_of_mem_replicate hst]
    decide
  -- The run is too long to be unfolded by `rfl`, so only its outcome is computed.
  have houtcome : value? (executeAll front {}) = some () := by decide +kernel
  obtain ⟨q, hrun⟩ := exists_of_value? houtcome
  have hlength : front.length = 256 := List.length_replicate
  obtain ⟨_, hk⟩ := straightLine_of_run hrun hops
  rw [hlength] at hk
  constructor
  · rcases executeAll_prepend hops hrun ss with
      ⟨p, s, hp, hs, h⟩ | ⟨_, _, _, _, herror, _⟩
    · rw [hlength] at h
      cases hp
      have hlt : s.image.size < addressSpan := by
        rw [h.grown.size_add, hk]
        decide
      exact ⟨q, _, s, rfl, hs, h, rfl, h.labels_eq hlt⟩
    · cases herror
  · rcases executeAll_prepend hops hrun broken with
      ⟨_, _, hp, _⟩ | ⟨_, e, p, s, hp, hs, _⟩
    · cases hp
    · cases hp
      exact ⟨_, s, rfl, hs⟩

end Assembler

end OnePass
