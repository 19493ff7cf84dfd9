import OnePass.Proofs.Steps

/-! # Sessions

    An assembly can be driven call by call, in any order and with any
    arguments; a call that fails does not end the session.

    * `Call`, `Assembly.call` : the calls and what each one leaves behind,
      whether it succeeds or fails.
    * `Session.after` : the assembly after a sequence of calls.
    * `Session.calls_preserve`, `Session.after_invariant` : what every step
      preserves holds after any sequence of calls.
    * `Session.image_reads_back` : the image of a session decodes to exactly
      the instructions that were placed. -/

namespace OnePass

/-- The calls that a session answers. -/
inductive Call where
  /-- Execute statements up to the first that fails. -/
  | run (ss : List Statement)
  /-- Execute one statement. -/
  | execute (st : Statement)
  /-- Place one instruction. -/
  | place (pos : Position) (m : Mnemonic) (args : List Argument)
  /-- Bind one label. -/
  | define (pos : Position) (name : String)
  /-- Start a new image. -/
  | reset
  /-- Report to another journal from here on. -/
  | reportTo (j : Journal)

/-- The assembly that a computation leaves behind, whether it succeeds or
    fails. -/
def Assembler.finalState {α : Type} (x : Assembler α) (s : Assembly) : Assembly :=
  match x s with
  | .ok _ s'    => s'
  | .error _ s' => s'

/-- The assembly after one call. -/
def Assembly.call (s : Assembly) : Call → Assembly
  | .run ss           => (Assembler.executeAll ss).finalState s
  | .execute st       => (Assembler.execute st).finalState s
  | .place pos m args => (Assembler.place pos m args).finalState s
  | .define pos name  => (Assembler.define pos name).finalState s
  | .reset            => s.reset
  | .reportTo j       => { s with journal := j }

namespace Session

/-- The assembly after a sequence of calls, from the start. -/
def after (calls : List Call) : Assembly :=
  calls.foldl Assembly.call {}

/-! ## Invariants -/

section invariants

variable {P : Assembly → Prop}
variable (step : ∀ {st : Statement} {s s' : Assembly}, P s → Assembler.Executes s st s' → P s')
include step

theorem execute_preserves {s : Assembly} (st : Statement) (h : P s) :
    P ((Assembler.execute st).finalState s) := by
  unfold Assembler.finalState
  split
  · next s' hok => exact step h (Assembler.execute_eq_ok_iff.1 hok)
  · next f s' herr =>
    obtain ⟨rfl, _⟩ := Assembler.execute_error herr
    exact h

/-- A run preserves what its steps preserve, also when it breaks off. -/
theorem executeAll_preserves {s : Assembly} (ss : List Statement) (h : P s) :
    P ((Assembler.executeAll ss).finalState s) := by
  induction ss generalizing s with
  | nil => exact h
  | cons st ss ih =>
    have hst := execute_preserves step st h
    unfold Assembler.finalState at hst ih ⊢
    rw [Assembler.executeAll_cons]
    -- Either way the run goes on from, or ends in, the state after `st`.
    cases hex : Assembler.execute st s with
    | ok _ s₁ =>
      rw [hex] at hst
      exact ih hst
    | error f s₁ =>
      rw [hex] at hst
      exact hst

/-- Placing an instruction directly is executing a statement that names it. -/
theorem place_preserves {s : Assembly} (pos : Position) (m : Mnemonic)
    (args : List Argument) (h : P s) : P ((Assembler.place pos m args).finalState s) := by
  unfold Assembler.finalState
  split
  · next address s' hok =>
    obtain ⟨_, i, lost, hbuilt, rfl⟩ := Assembler.place_eq_ok_iff.1 hok
    exact step h (.operation hbuilt)
  · next f s' herr =>
    obtain ⟨rfl, _⟩ := Assembler.place_error herr
    exact h

/-- Binding a label directly is executing a label declaration. -/
theorem define_preserves {s : Assembly} (pos : Position) (name : String) (h : P s) :
    P ((Assembler.define pos name).finalState s) := by
  unfold Assembler.finalState
  split
  · next address s' hok =>
    obtain ⟨_, hfree, rfl⟩ := Assembler.define_eq_ok_iff.1 hok
    exact step h (.label hfree)
  · next f s' herr =>
    obtain ⟨rfl, _⟩ := Assembler.define_error herr
    exact h

/-- What holds before a sequence of calls and is preserved by every successful
    step, by `reset` and by a change of journal holds after them.  `reset`
    matters only if it is called. -/
theorem calls_preserve (calls : List Call) {s : Assembly} (h : P s)
    (reset : .reset ∈ calls → ∀ {s : Assembly}, P s → P s.reset)
    (journal : ∀ {s : Assembly} (j : Journal), P s → P { s with journal := j }) :
    P (calls.foldl Assembly.call s) := by
  induction calls generalizing s with
  | nil => exact h
  | cons call calls ih =>
    have hcall : P (s.call call) := by
      cases call with
      | run ss => exact executeAll_preserves step ss h
      | execute st => exact execute_preserves step st h
      | place pos m args => exact place_preserves step pos m args h
      | define pos name => exact define_preserves step pos name h
      | reset => exact reset (List.mem_cons_self ..) h
      | reportTo j => exact journal j h
    exact ih hcall fun hmem => reset (List.mem_cons_of_mem _ hmem)

/-- The session lemma: what holds at the start and is preserved holds after any
    sequence of calls. -/
theorem after_invariant (calls : List Call) (start : P {})
    (reset : .reset ∈ calls → ∀ {s : Assembly}, P s → P s.reset)
    (journal : ∀ {s : Assembly} (j : Journal), P s → P { s with journal := j }) :
    P (after calls) :=
  calls_preserve step calls start reset journal

end invariants

/-! ## The image of a session -/

/-- Every instruction of the image fits its word. -/
def ImageFits (s : Assembly) : Prop :=
  ∀ e ∈ s.image.entries.toList, e.instruction.Fits

theorem imageFits_step {st : Statement} {s s' : Assembly} (h : ImageFits s)
    (hstep : Assembler.Executes s st s') : ImageFits s' := by
  cases hstep with
  | @operation pos m args i lost hbuilt =>
    intro e he
    have hmem : e ∈ s.image.entries.toList ++ [⟨pos, i⟩] := by
      rwa [← Image.toList_push]
    rcases List.mem_append.1 hmem with hold | hnew
    · exact h e hold
    · rw [List.mem_singleton.1 hnew]
      exact hbuilt.fits
  | label hfree => exact h

/-- `encode` alone would let a wide jump spoil its opcode; no sequence of
    calls gets one into the image. -/
theorem imageFits_after (calls : List Call) : ImageFits (after calls) := by
  refine after_invariant imageFits_step calls ?_ ?_ ?_
  · intro e he
    cases he
  · intro _ s _ e he
    cases he
  · intro s j h
    exact h

/-- The words of an image whose instructions fit decode to the instructions. -/
theorem map_decode_words {s : Assembly} (h : ImageFits s) :
    s.image.words.map Instruction.decode =
      s.image.entries.toList.map fun e => some e.instruction := by
  unfold Image.words
  rw [List.map_map]
  refine List.map_congr_left fun e he => ?_
  exact Instruction.decode_encode (h e he)

/-- After any sequence of calls, the bytes of the image are pairs, and
    reading and decoding the pairs gives exactly the instructions placed, in
    order.  So every jump in the image stays below 2^12. -/
theorem image_reads_back (calls : List Call) :
    (readWords (after calls).image.bytes).map (·.map Instruction.decode) =
        some ((after calls).image.entries.toList.map fun e => some e.instruction) ∧
      ∀ e ∈ (after calls).image.entries.toList, ∀ dest : BitVec 16,
        e.instruction = .jmp dest → dest.toNat < 4096 := by
  have hfits := imageFits_after calls
  constructor
  · rw [Image.bytes, readWords_bytes, Option.map_some, map_decode_words hfits]
  · intro e he dest hjmp
    have h := hfits e he
    rwa [hjmp] at h

end Session

end OnePass
