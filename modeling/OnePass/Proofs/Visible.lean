import OnePass.Source.Cursor

/-! # Cursors without comments

    A cursor drops comments one by one as it meets them.  Seen from outside it
    walks over the list from which all comments have been removed at once:
    `visible` is what is left of that list, and every operation is described
    through it.

    For each operation there is an inversion lemma (what a given answer says
    about the tokens) and, for the answers that take a token, a lemma in the
    other direction. -/

namespace OnePass

/-- The tokens that are no comments. -/
def withoutComments (ts : List Token) : List Token :=
  ts.filter fun t => !t.isComment

theorem withoutComments_append (ts us : List Token) :
    withoutComments (ts ++ us) = withoutComments ts ++ withoutComments us :=
  List.filter_append ..

theorem withoutComments_dropWhile (ts : List Token) :
    withoutComments (ts.dropWhile Token.isComment) = withoutComments ts := by
  induction ts with
  | nil => rfl
  | cons t ts ih =>
    by_cases ht : t.isComment = true
    · rw [List.dropWhile_cons_of_pos ht, ih]
      simp [withoutComments, ht]
    · rw [List.dropWhile_cons_of_neg ht]

namespace Cursor

/-- The tokens still to come, comments left out. -/
def visible (c : Cursor) : List Token :=
  withoutComments c.pending

@[simp] theorem visible_ofTokens (ts : List Token) :
    (ofTokens ts).visible = withoutComments ts := rfl

variable {c c' : Cursor} {t : Token} {ts : List Token}

theorem visible_of_upcoming_nil (h : c.upcoming = []) : c.visible = [] := by
  rw [visible, ← withoutComments_dropWhile, ← upcoming, h]
  rfl

theorem visible_of_upcoming_cons (h : c.upcoming = t :: ts) :
    c.visible = t :: withoutComments ts := by
  -- What `dropWhile` stops at is no comment.
  have ht : t.isComment = false := by
    have hhead := List.head?_dropWhile_not Token.isComment c.pending
    rw [← upcoming, h] at hhead
    simpa using hhead
  rw [visible, ← withoutComments_dropWhile, ← upcoming, h]
  simp [withoutComments, ht]

theorem peek?_eq_head? (c : Cursor) : c.peek? = c.visible.head? := by
  unfold peek?
  cases h : c.upcoming with
  | nil => rw [visible_of_upcoming_nil h]
  | cons t ts => rw [visible_of_upcoming_cons h]; rfl

/-! ## Taking a token -/

theorem next_some (h : c.next = (some t, c')) :
    c.visible = t :: c'.visible ∧ c'.last = t.position := by
  unfold next at h
  split at h
  · cases h
  · next hup =>
    cases h
    exact ⟨visible_of_upcoming_cons hup, rfl⟩

theorem next_none (h : c.next = (none, c')) :
    c.visible = [] ∧ c'.visible = [] ∧ c'.last = c.last := by
  unfold next at h
  split at h
  · next hup =>
    cases h
    exact ⟨visible_of_upcoming_nil hup, rfl, rfl⟩
  · cases h

theorem next_of_visible (h : c.visible = t :: ts) :
    ∃ c', c.next = (some t, c') ∧ c'.visible = ts ∧ c'.last = t.position := by
  cases hn : c.next with
  | mk answer c' =>
    cases answer with
    | none =>
      rw [(next_none hn).1] at h
      cases h
    | some t' =>
      obtain ⟨hv, hl⟩ := next_some hn
      rw [h] at hv
      cases hv
      exact ⟨c', rfl, rfl, hl⟩

/-! ## Taking a token that fits -/

variable {α : Type} {accept : Token → Option α} {a : α}

theorem check_eq_true_iff :
    c.check accept = true ↔ ∃ t, c.visible.head? = some t ∧ (accept t).isSome := by
  unfold check
  rw [peek?_eq_head?]
  cases c.visible.head? <;> simp

theorem consume_some (h : c.consume accept = (some a, c')) :
    ∃ t, accept t = some a ∧ c.visible = t :: c'.visible ∧ c'.last = t.position := by
  unfold consume at h
  split at h
  · next t rest hn =>
    split at h
    · next ha =>
      cases h
      exact ⟨t, ha, next_some hn⟩
    · cases h
  · cases h

theorem consume_of_visible (h : c.visible = t :: ts) (ha : accept t = some a) :
    ∃ c', c.consume accept = (some a, c') ∧ c'.visible = ts ∧ c'.last = t.position := by
  obtain ⟨c', hn, hv, hl⟩ := next_of_visible h
  exact ⟨c', by simp only [consume, hn, ha], hv, hl⟩

theorem consume_of_head (h : ∀ t, c.visible.head? = some t → accept t = none) :
    c.consume accept = (none, c) := by
  cases hc : c.consume accept with
  | mk answer c' =>
    cases answer with
    | none => rw [eq_of_consume_none hc]
    | some a =>
      obtain ⟨t, ha, hv, _⟩ := consume_some hc
      have hnone := h t (by rw [hv]; rfl)
      rw [ha] at hnone
      cases hnone

theorem consume_none (h : c.consume accept = (none, c')) :
    ∀ t, c.visible.head? = some t → accept t = none := by
  intro t ht
  obtain ⟨ts, hv⟩ := List.head?_eq_some_iff.1 ht
  cases ha : accept t with
  | none => rfl
  | some a =>
    obtain ⟨c₁, hsome, _⟩ := consume_of_visible hv ha
    rw [h] at hsome
    cases hsome

/-! ## Taking a token that must fit -/

theorem expect_ok (h : c.expect accept = (.ok a, c')) :
    ∃ t, accept t = some a ∧ c.visible = t :: c'.visible ∧ c'.last = t.position := by
  unfold expect at h
  split at h
  · next t rest hn =>
    split at h
    · next ha =>
      cases h
      exact ⟨t, ha, next_some hn⟩
    · cases h
  · cases h

/-- Either there is no token left, and the last one is blamed, or the next one
    does not fit. -/
theorem expect_error {f : SourceFault} (h : c.expect accept = (.error f, c')) :
    (c.visible = [] ∧ f = ⟨c.last, .unexpectedEndOfLine⟩) ∨
      ∃ t, c.visible.head? = some t ∧ accept t = none ∧ f = t.misplaced := by
  unfold expect at h
  split at h
  · next t rest hn =>
    split at h
    · cases h
    · next ha =>
      cases h
      exact .inr ⟨t, by rw [(next_some hn).1]; rfl, ha, rfl⟩
  · next hn =>
    cases h
    exact .inl ⟨(next_none hn).1, rfl⟩

theorem expect_of_visible (h : c.visible = t :: ts) (ha : accept t = some a) :
    ∃ c', c.expect accept = (.ok a, c') ∧ c'.visible = ts ∧ c'.last = t.position := by
  obtain ⟨c', hn, hv, hl⟩ := next_of_visible h
  exact ⟨c', by simp only [expect, hn, ha], hv, hl⟩

end Cursor

end OnePass
