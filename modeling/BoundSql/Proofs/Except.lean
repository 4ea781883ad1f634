/-!
# Computations that may fail

What is known of the steps of a computation that succeeded.
-/

namespace BoundSql

variable {ε α β γ : Type}

theorem exists_ok_of_isOk {x : Except ε α} (h : x.isOk = true) : ∃ a, x = .ok a := by
  cases x with
  | error e => cases h
  | ok a => exact ⟨a, rfl⟩

theorem exists_error_of_not_isOk {x : Except ε α} (h : x.isOk = false) : ∃ e, x = .error e := by
  cases x with
  | error e => exact ⟨e, rfl⟩
  | ok a => cases h

/-- If a computation succeeds, so did its first step. -/
theorem exists_of_bind_eq_ok {x : Except ε α} {f : α → Except ε β} {b : β} (h : x >>= f = .ok b) :
    ∃ a, x = .ok a ∧ f a = .ok b := by
  cases x with
  | error e => cases h
  | ok a => exact ⟨a, rfl, h⟩

/-- A computation of two steps fails where the first step does, or where the second one does. -/
theorem bind_eq_error_iff {x : Except ε α} {f : α → Except ε β} {e : ε} :
    x >>= f = .error e ↔ x = .error e ∨ ∃ a, x = .ok a ∧ f a = .error e := by
  cases x with
  | error e' =>
    constructor
    · rintro ⟨⟩
      exact .inl rfl
    · rintro (⟨⟨⟩⟩ | ⟨a, ⟨⟩, -⟩)
      rfl
  | ok a =>
    constructor
    · intro h
      exact .inr ⟨a, rfl, h⟩
    · rintro (⟨⟨⟩⟩ | ⟨_, ⟨⟩, h⟩)
      exact h

/-- The computation has every result and fails for every reason there is, and one or the other there
always is. So there is at most one result or reason. -/
structure Answers (x : Except ε α) (Result : α → Prop) (Reason : ε → Prop) : Prop where
  ok : ∀ a, Result a → x = .ok a
  error : ∀ e, Reason e → x = .error e
  total : (∃ a, Result a) ∨ ∃ e, Reason e

theorem Answers.eq_ok_iff {x : Except ε α} {Result : α → Prop} {Reason : ε → Prop}
    (h : Answers x Result Reason) {a : α} : x = .ok a ↔ Result a := by
  refine ⟨fun hx => ?_, h.ok a⟩
  rcases h.total with ⟨b, hb⟩ | ⟨e, he⟩
  · cases hx.symm.trans (h.ok b hb)
    exact hb
  · cases hx.symm.trans (h.error e he)

theorem Answers.eq_error_iff {x : Except ε α} {Result : α → Prop} {Reason : ε → Prop}
    (h : Answers x Result Reason) {e : ε} : x = .error e ↔ Reason e := by
  refine ⟨fun hx => ?_, h.error e⟩
  rcases h.total with ⟨a, ha⟩ | ⟨e', he'⟩
  · cases hx.symm.trans (h.ok a ha)
  · cases hx.symm.trans (h.error e' he')
    exact he'

/-- If a computation succeeds on every element of a list, each result is the result of one. -/
theorem exists_mem_of_mapM_eq_ok {f : α → Except ε β} :
    ∀ {as : List α} {bs : List β}, as.mapM f = .ok bs → ∀ b ∈ bs, ∃ a ∈ as, f a = .ok b
  | [], bs, h, b, hb => by
    cases h
    cases hb
  | a :: as, bs, h, b, hb => by
    rw [List.mapM_cons] at h
    obtain ⟨first, hfirst, h⟩ := exists_of_bind_eq_ok h
    obtain ⟨rest, hrest, h⟩ := exists_of_bind_eq_ok h
    cases h
    rcases List.mem_cons.mp hb with rfl | hb
    · exact ⟨a, List.mem_cons_self, hfirst⟩
    · obtain ⟨a', ha', hab⟩ := exists_mem_of_mapM_eq_ok hrest b hb
      exact ⟨a', List.mem_cons_of_mem a ha', hab⟩

/-- What is seen of the results of a computation on every element, if it succeeds, is what is seen
of the elements. -/
theorem flatMap_eq_of_mapM_eq_ok {f : α → Except ε β} {view : β → List γ} {seen : α → List γ}
    (hview : ∀ a b, f a = .ok b → view b = seen a) :
    ∀ {as : List α} {bs : List β}, as.mapM f = .ok bs → bs.flatMap view = as.flatMap seen
  | [], bs, h => by
    cases h
    rfl
  | a :: as, bs, h => by
    rw [List.mapM_cons] at h
    obtain ⟨first, hfirst, h⟩ := exists_of_bind_eq_ok h
    obtain ⟨rest, hrest, h⟩ := exists_of_bind_eq_ok h
    cases h
    rw [List.flatMap_cons, List.flatMap_cons, hview a first hfirst,
      flatMap_eq_of_mapM_eq_ok hview hrest]

/-- A computation on every element of a list fails as it does on the first element on which it
fails. -/
theorem mapM_eq_error_iff {f : α → Except ε β} {e : ε} (as : List α) :
    as.mapM f = .error e ↔
      ∃ (i : Nat) (a : α), as[i]? = some a ∧ f a = .error e ∧
        ∀ j < i, ∀ b, as[j]? = some b → ∃ c, f b = .ok c := by
  induction as with
  | nil =>
    constructor
    · rintro ⟨⟩
    · rintro ⟨i, a, ⟨⟩, -⟩
  | cons a as ih =>
    rw [List.mapM_cons, bind_eq_error_iff]
    constructor
    · rintro (hfirst | ⟨c, hfirst, hrest⟩)
      · exact ⟨0, a, rfl, hfirst, fun j hj => absurd hj j.not_lt_zero⟩
      · rcases bind_eq_error_iff.mp hrest with hrest | ⟨_, -, ⟨⟩⟩
        obtain ⟨i, b, hb, hfail, hbefore⟩ := ih.mp hrest
        refine ⟨i + 1, b, hb, hfail, fun j hj d hd => ?_⟩
        cases j with
        | zero =>
          cases hd
          exact ⟨c, hfirst⟩
        | succ j => exact hbefore j (Nat.lt_of_succ_lt_succ hj) d hd
    · rintro ⟨i, b, hb, hfail, hbefore⟩
      cases i with
      | zero =>
        cases hb
        exact .inl hfail
      | succ i =>
        obtain ⟨c, hfirst⟩ := hbefore 0 i.succ_pos a rfl
        refine .inr ⟨c, hfirst, bind_eq_error_iff.mpr (.inl (ih.mpr ⟨i, b, hb, hfail, ?_⟩))⟩
        exact fun j hj d hd => hbefore (j + 1) (Nat.succ_lt_succ hj) d hd

end BoundSql
