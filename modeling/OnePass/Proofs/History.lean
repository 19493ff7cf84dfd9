import Mathlib.Data.List.Induction
import Mathlib.Data.List.Nodup
import OnePass.Proofs.NameTable
import OnePass.Proofs.Typing

/-! # Symbols as a history

    A table of symbols is filled by requests to bind labels, of which those for
    a name that is taken from the start are refused.  Looking at the requests
    alone, one can tell what the table holds: a label for each name that was
    granted, in the order of the first requests, with the address of the last.

    * `Symbols.requested`, `NameTable.requested` : the table after a sequence of
      requests, of the labels alone and of all names.
    * `History.latest?`, `History.first` : what the requests say about a name.
    * `History.Records` : table and requests agree.  Every request preserves
      this (`History.records_step`).
    * `NameTable.Answers` : the table of all names answers as the table of labels.
    * `Symbols.define_history` : what the table answers after any sequence of
      requests. -/

namespace OnePass

namespace Symbols

/-! ## Requests -/

/-- The table after a request to bind a label.  A request that is refused leaves
    it as it was. -/
def request (t : Symbols) (r : Label) : Symbols :=
  match t.define r.name r.address with
  | .ok (_, t') => t'
  | .error _    => t

/-- The table after a sequence of requests, from the start. -/
def requested (rs : List Label) : Symbols :=
  rs.foldl request {}

theorem requested_concat (rs : List Label) (r : Label) :
    requested (rs ++ [r]) = (requested rs).request r := by
  unfold requested
  rw [List.foldl_append]
  rfl

variable {t : Symbols} {name : String} {n : Nat}

theorem request_of_taken {r : Label} (h : r.name ∈ predeclaredNames) : t.request r = t := by
  simp only [request, define_of_taken h]

theorem request_of_free {r : Label} (h : r.name ∉ predeclaredNames) :
    t.request r = t.bind r.name r.address := by
  simp only [request, define_of_free h]

end Symbols

namespace NameTable

/-- The table of all names after a request to bind a label. -/
def request (u : NameTable) (r : Label) : NameTable :=
  match u.define r.name r.address with
  | .ok (_, u') => u'
  | .error _    => u

/-- The table of all names after a sequence of requests, from the start. -/
def requested (rs : List Label) : NameTable :=
  rs.foldl request start

theorem request_ofSymbols (t : Symbols) (r : Label) :
    (ofSymbols t).request r = ofSymbols (t.request r) := by
  unfold request Symbols.request
  rw [define_ofSymbols]
  cases t.define r.name r.address <;> rfl

/-- The two tables stay together. -/
theorem requested_eq (rs : List Label) : requested rs = ofSymbols (Symbols.requested rs) := by
  have hstart : start = ofSymbols {} := by decide
  unfold requested Symbols.requested
  rw [hstart]
  exact List.foldl_hom ofSymbols request_ofSymbols

end NameTable

/-! ## The names of a table -/

namespace Symbols

variable {t : Symbols} {name : String} {n : Nat}

/-- A new name goes to the end; a name that is there keeps its place. -/
theorem scope_bind (t : Symbols) (name : String) (n : Nat) :
    (t.bind name n).scope = if name ∈ t.scope then t.scope else t.scope ++ [name] := by
  have hany : t.labels.any (·.name == name) = true ↔ name ∈ t.scope := by
    rw [List.any_eq_true, scope, List.mem_map]
    simp only [beq_iff_eq]
  unfold bind
  by_cases hbound : name ∈ t.scope
  · rw [if_pos (hany.2 hbound), if_pos hbound]
    unfold scope
    rw [List.map_map]
    refine List.map_congr_left ?_
    intro l _
    simp only [Function.comp]
    split <;> rfl
  · have hnew : ¬ t.labels.any (·.name == name) = true := by
      rw [hany]
      exact hbound
    rw [if_neg hnew, if_neg hbound]
    unfold scope
    rw [List.map_append]
    rfl

/-- No name is listed twice. -/
theorem nodup_scope_bind (h : t.scope.Nodup) : (t.bind name n).scope.Nodup := by
  rw [scope_bind]
  by_cases hbound : name ∈ t.scope
  · rw [if_pos hbound]
    exact h
  · rw [if_neg hbound, List.nodup_append]
    refine ⟨h, List.nodup_singleton name, ?_⟩
    intro a ha b hb hab
    rw [List.mem_singleton.1 hb] at hab
    exact hbound (hab ▸ ha)

/-- As long as no name is listed twice, looking a name up is finding it in the
    list. -/
theorem address?_eq_some_iff (h : t.scope.Nodup) :
    t.address? name = some n ↔ ⟨name, n⟩ ∈ t.labels := by
  constructor
  · intro hn
    obtain ⟨l, hl, rfl⟩ := Option.map_eq_some_iff.1 hn
    have hname : l.name = name := by simpa using List.find?_some hl
    rw [← hname]
    exact List.mem_of_find?_eq_some hl
  · intro hmem
    -- Two labels of the same name would stand at the same place.
    have hunique : ∀ l ∈ t.labels, l.name = name → l = ⟨name, n⟩ := by
      intro l hl hname
      exact List.inj_on_of_nodup_map h hl hmem hname
    have hfound : (t.labels.find? (·.name == name)).isSome := by
      rw [List.find?_isSome]
      exact ⟨_, hmem, by simp⟩
    obtain ⟨l, hl⟩ := Option.isSome_iff_exists.1 hfound
    have hname : l.name = name := by simpa using List.find?_some hl
    rw [address?, hl, hunique l (List.mem_of_find?_eq_some hl) hname]
    rfl

end Symbols

/-! ## What the requests say -/

namespace History

/-- The requests for names that are not taken from the start. -/
def granted (rs : List Label) : List Label :=
  rs.filter fun r => r.name ∉ predeclaredNames

/-- The address that the latest of the granted requests for a name gives. -/
def latest? (rs : List Label) (name : String) : Option Nat :=
  ((granted rs).filter (·.name == name)).getLast?.map (·.address)

/-- How many requests stand before the first for a name. -/
def first (rs : List Label) (name : String) : Nat :=
  rs.findIdx (·.name == name)

variable {rs : List Label} {r : Label} {name : String}

theorem latest?_concat_of_taken (h : r.name ∈ predeclaredNames) :
    latest? (rs ++ [r]) name = latest? rs name := by
  unfold latest? granted
  rw [List.filter_append, List.filter_singleton]
  simp [h]

theorem latest?_concat_of_free (h : r.name ∉ predeclaredNames) :
    latest? (rs ++ [r]) name = if name = r.name then some r.address else latest? rs name := by
  unfold latest? granted
  rw [List.filter_append, List.filter_append]
  by_cases hname : name = r.name
  · subst hname
    simp [h]
  · have hne : ¬ r.name = name := fun heq => hname heq.symm
    simp [h, hname, hne]

theorem first_lt_length_iff : first rs name < rs.length ↔ ∃ r ∈ rs, r.name = name := by
  unfold first
  rw [List.findIdx_lt_length]
  simp only [beq_iff_eq]

/-- A later request does not change which one came first. -/
theorem first_concat (h : ∃ s ∈ rs, s.name = name) : first (rs ++ [r]) name = first rs name := by
  have hlt := first_lt_length_iff.2 h
  unfold first at hlt ⊢
  rw [List.findIdx_append, if_pos hlt]

theorem first_concat_self (h : ¬ ∃ s ∈ rs, s.name = r.name) :
    first (rs ++ [r]) r.name = rs.length := by
  have hnot : ¬ first rs r.name < rs.length := by
    rw [first_lt_length_iff]
    exact h
  unfold first at hnot ⊢
  rw [List.findIdx_append, if_neg hnot]
  simp

/-! ## Table and requests -/

/-- `Records rs t`: the table `t` holds what the requests `rs` amount to. -/
structure Records (rs : List Label) (t : Symbols) : Prop where
  addresses : ∀ name, t.address? name = latest? rs name
  names : ∀ name, name ∈ t.scope ↔ name ∉ predeclaredNames ∧ ∃ r ∈ rs, r.name = name
  ordered : t.scope.Pairwise fun a b => first rs a < first rs b

theorem records_start : Records [] {} where
  addresses name := rfl
  names name := by simp [Symbols.scope]
  ordered := .nil

/-- One more request moves no first request of a name that is in the table. -/
theorem Records.ordered_concat {t : Symbols} (h : Records rs t) (r : Label) :
    t.scope.Pairwise fun a b => first (rs ++ [r]) a < first (rs ++ [r]) b := by
  refine h.ordered.imp_of_mem ?_
  intro a b ha hb hlt
  have hfirst : ∀ name ∈ t.scope, first (rs ++ [r]) name = first rs name := by
    intro name hname
    exact first_concat ((h.names name).1 hname).2
  rw [hfirst a ha, hfirst b hb]
  exact hlt

theorem exists_mem_concat_iff :
    (∃ s ∈ rs ++ [r], s.name = name) ↔ (∃ s ∈ rs, s.name = name) ∨ r.name = name := by
  simp only [List.mem_append, List.mem_singleton, or_and_right, exists_or, exists_eq_left]

/-- A request for a name that is taken is one more request, and nothing else. -/
theorem Records.of_taken {t : Symbols} (h : Records rs t) (htaken : r.name ∈ predeclaredNames) :
    Records (rs ++ [r]) t := by
  refine ⟨?_, ?_, h.ordered_concat r⟩
  · intro name
    rw [latest?_concat_of_taken htaken]
    exact h.addresses name
  · intro name
    rw [h.names, exists_mem_concat_iff]
    constructor
    · intro hname
      exact ⟨hname.1, .inl hname.2⟩
    · intro hname
      refine ⟨hname.1, hname.2.resolve_right ?_⟩
      intro heq
      exact hname.1 (heq ▸ htaken)

theorem Records.names_bind {t : Symbols} (h : Records rs t) (hfree : r.name ∉ predeclaredNames)
    (name : String) : name ∈ (t.bind r.name r.address).scope ↔
      name ∉ predeclaredNames ∧ ∃ s ∈ rs ++ [r], s.name = name := by
  rw [Symbols.scope_bind, exists_mem_concat_iff]
  by_cases hbound : r.name ∈ t.scope
  · rw [if_pos hbound, h.names]
    constructor
    · intro hname
      exact ⟨hname.1, .inl hname.2⟩
    · intro hname
      refine ⟨hname.1, hname.2.elim id ?_⟩
      intro heq
      exact heq ▸ ((h.names r.name).1 hbound).2
  · rw [if_neg hbound, List.mem_append, List.mem_singleton, h.names]
    constructor
    · intro hname
      rcases hname with hold | rfl
      · exact ⟨hold.1, .inl hold.2⟩
      · exact ⟨hfree, .inr rfl⟩
    · intro hname
      rcases hname.2 with hold | rfl
      · exact .inl ⟨hname.1, hold⟩
      · exact .inr rfl

theorem Records.ordered_bind {t : Symbols} (h : Records rs t) (hfree : r.name ∉ predeclaredNames) :
    (t.bind r.name r.address).scope.Pairwise
      fun a b => first (rs ++ [r]) a < first (rs ++ [r]) b := by
  rw [Symbols.scope_bind]
  by_cases hbound : r.name ∈ t.scope
  · rw [if_pos hbound]
    exact h.ordered_concat r
  · -- The name is new to the table, and so to the requests.
    have hnew : ¬ ∃ s ∈ rs, s.name = r.name := by
      intro hold
      exact hbound ((h.names r.name).2 ⟨hfree, hold⟩)
    rw [if_neg hbound, List.pairwise_append]
    refine ⟨h.ordered_concat r, List.pairwise_singleton _ _, ?_⟩
    intro a ha b hb
    have hold : ∃ s ∈ rs, s.name = a := ((h.names a).1 ha).2
    have hlt : first rs a < rs.length := first_lt_length_iff.2 hold
    rw [List.mem_singleton.1 hb, first_concat hold, first_concat_self hnew]
    exact hlt

/-- The step lemma: granted or refused, a request keeps table and requests in
    agreement. -/
theorem records_step {t : Symbols} (h : Records rs t) (r : Label) :
    Records (rs ++ [r]) (t.request r) := by
  by_cases htaken : r.name ∈ predeclaredNames
  · rw [Symbols.request_of_taken htaken]
    exact h.of_taken htaken
  · rw [Symbols.request_of_free htaken]
    refine ⟨?_, h.names_bind htaken, h.ordered_bind htaken⟩
    intro name
    rw [Symbols.address?_bind, latest?_concat_of_free htaken, h.addresses]

/-- The run lemma. -/
theorem records_requested (rs : List Label) : Records rs (Symbols.requested rs) := by
  induction rs using List.reverseRecOn with
  | nil => exact records_start
  | append_singleton rs r ih =>
    rw [Symbols.requested_concat]
    exact records_step ih r

theorem Records.nodup {t : Symbols} (h : Records rs t) : t.scope.Nodup := by
  refine h.ordered.imp ?_
  intro a b hlt heq
  rw [heq] at hlt
  omega

/-- `Lists rs ls`: the labels `ls` are those that the requests `rs` bind. -/
structure Lists (rs ls : List Label) : Prop where
  /-- Every name that was granted is listed, and nothing else. -/
  names : ∀ name, name ∈ ls.map (·.name) ↔ name ∉ predeclaredNames ∧ ∃ r ∈ rs, r.name = name
  /-- No name is listed twice. -/
  nodup : (ls.map (·.name)).Nodup
  /-- They stand in the order of the first requests for them. -/
  ordered : ls.Pairwise fun a b => first rs a.name < first rs b.name
  /-- They have the addresses of the last requests for them. -/
  addresses : ∀ l ∈ ls, latest? rs l.name = some l.address

theorem Records.lists {t : Symbols} (h : Records rs t) : Lists rs t.labels where
  names := h.names
  nodup := h.nodup
  ordered := by
    have hordered := h.ordered
    rwa [Symbols.scope, List.pairwise_map] at hordered
  addresses l hl := by
    rw [← h.addresses]
    exact (Symbols.address?_eq_some_iff h.nodup).2 hl

end History

/-! ## The answers of the table -/

open History

/-- `u.Answers t`: the table `u` of all names answers as the table `t` of
    labels does. -/
structure NameTable.Answers (u : NameTable) (t : Symbols) : Prop where
  get?_eq : ∀ name, u.get? name = t.meaning? name
  address?_eq : ∀ name, u.address? name = t.address? name
  labels_eq : u.labels = t.labels
  /-- Both refuse a request, or both tell the same address. -/
  define_eq : ∀ name n, (u.define name n).map (·.1) = (t.define name n).map (·.1)

/-- A table that holds no label under a name that is taken is answered for by
    the one table. -/
theorem NameTable.answers_ofSymbols {t : Symbols} (h : ∀ name ∈ t.scope, name ∉ predeclaredNames) :
    (ofSymbols t).Answers t where
  get?_eq := get?_ofSymbols t
  address?_eq name := by
    apply Option.ext
    intro n
    rw [address?_ofSymbols_eq_some_iff]
    constructor
    · intro hn
      exact hn.2
    · intro hn
      exact ⟨h name (Symbols.exists_address?_iff.1 ⟨n, hn⟩), hn⟩
  labels_eq := labels_ofSymbols t
  define_eq name n := by
    rw [define_ofSymbols]
    cases t.define name n <;> rfl

/-- After any sequence of requests: the next one is refused exactly if its name
    is taken from the start, and then nothing changes; otherwise it is answered
    with the address of the latest request for that name that was granted.  The
    labels are listed as the requests say, the two ways to look up a name that
    is not taken agree with the list, and every name that is taken still means
    what it did at the start.  All of this is so with one table for all names,
    where a name that is taken could be bound like any other. -/
theorem Symbols.define_history (rs : List Label) :
    (∀ r : Label,
      (∀ f, (requested rs).define r.name r.address = .error f ↔
        r.name ∈ predeclaredNames ∧ f = .predeclared r.name) ∧
      (r.name ∈ predeclaredNames → requested (rs ++ [r]) = requested rs) ∧
      (r.name ∉ predeclaredNames →
        (requested rs).define r.name r.address =
          .ok (latest? rs r.name, requested (rs ++ [r])))) ∧
    Lists rs (requested rs).labels ∧
    (∀ name n, (requested rs).address? name = some n ↔ ⟨name, n⟩ ∈ (requested rs).labels) ∧
    (∀ name, name ∉ predeclaredNames →
      (requested rs).meaning? name = ((requested rs).address? name).map .address) ∧
    (∀ r : Register, (requested rs).meaning? r.name = some (.register r)) ∧
    (∀ m : Mnemonic, (requested rs).meaning? m.name = some (.operation m)) ∧
    (requested rs).meaning? labelDirectiveName = some .labelDirective ∧
    (NameTable.requested rs).Answers (requested rs) ∧
    (∀ r : Register, (NameTable.requested rs).get? r.name = some (.register r)) ∧
    (∀ m : Mnemonic, (NameTable.requested rs).get? m.name = some (.operation m)) ∧
    (NameTable.requested rs).get? labelDirectiveName = some .labelDirective := by
  have hrecords := records_requested rs
  have haddress : ∀ name n, (requested rs).address? name = some n ↔
      ⟨name, n⟩ ∈ (requested rs).labels := fun name n => address?_eq_some_iff hrecords.nodup
  have hregister : ∀ r : Register, (requested rs).meaning? r.name = some (.register r) :=
    fun r => meaning?_eq_register_iff.2 (Register.ofName?_name r)
  have hmnemonic : ∀ m : Mnemonic, (requested rs).meaning? m.name = some (.operation m) :=
    fun m => meaning?_eq_operation_iff.2 rfl
  have hdirective : (requested rs).meaning? labelDirectiveName = some .labelDirective :=
    meaning?_eq_labelDirective_iff.2 rfl
  have hanswers : (NameTable.requested rs).Answers (requested rs) := by
    rw [NameTable.requested_eq]
    exact NameTable.answers_ofSymbols fun name hname => ((hrecords.names name).1 hname).1
  refine ⟨fun r => ⟨fun f => ?_, fun htaken => ?_, fun hfree => ?_⟩, hrecords.lists, haddress,
    fun name hfree => ?_, hregister, hmnemonic, hdirective, hanswers, ?_⟩
  · by_cases htaken : r.name ∈ predeclaredNames
    · rw [define_of_taken htaken]
      simp [htaken, eq_comm]
    · rw [define_of_free htaken]
      simp [htaken]
  · rw [requested_concat, request_of_taken htaken]
  · rw [requested_concat, request_of_free hfree, define_of_free hfree, hrecords.addresses]
  · simp only [meaning?, predeclared?_eq_none_iff.2 hfree]
  · simp only [hanswers.get?_eq]
    exact ⟨hregister, hmnemonic, hdirective⟩

end OnePass
