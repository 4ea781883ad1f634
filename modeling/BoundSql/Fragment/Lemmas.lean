import BoundSql.Fragment.Render

/-!
# Laws of fragments

Concatenation of fragments is associative with the empty fragment as its identity, and every view of
a concatenation is put together from the views of the two fragments:

    binds_append  :  (a ++ b).binds = a.binds ++ b.binds
    render_append :  rendering `a ++ b` is rendering `a`, then `b` with its numbers shifted
-/

namespace BoundSql.Fragment

/-! ### Gluing parts -/

@[simp] theorem nil_glue (qs : List Part) : glue [] qs = qs := rfl

@[simp] theorem glue_nil (ps : List Part) : glue ps [] = ps := by
  induction ps with
  | nil => rfl
  | cons p ps ih => cases p <;> simp [glue, ih]

/-- A part with more parts behind it is not at the seam. -/
theorem glue_cons_cons (p q : Part) (ps qs : List Part) :
    glue (p :: q :: ps) qs = p :: glue (q :: ps) qs := by
  cases p <;> simp [glue]

/-- What is glued behind a list with a part begins with a part. -/
theorem glue_ne_nil {ps : List Part} (h : ps ≠ []) (qs : List Part) : glue ps qs ≠ [] := by
  fun_induction glue ps qs <;> simp_all

theorem glue_assoc (ps qs rs : List Part) : glue (glue ps qs) rs = glue ps (glue qs rs) := by
  induction ps with
  | nil => rfl
  | cons p ps ih =>
    cases ps with
    | cons p' ps =>
      rw [glue_cons_cons, glue_cons_cons, ← ih]
      obtain ⟨x, xs, hx⟩ := List.exists_cons_of_ne_nil (glue_ne_nil (List.cons_ne_nil p' ps) qs)
      rw [hx, glue_cons_cons]
    | nil =>
      cases qs with
      | nil => simp
      | cons q qs =>
        cases qs with
        | nil => cases p <;> cases q <;> cases rs with
          | nil => simp [glue]
          | cons r rs => cases r <;> simp [glue, String.append_assoc]
        | cons q' qs => cases p <;> cases q <;> simp [glue]

/-! ### The monoid of fragments -/

@[simp] theorem parts_append (a b : Fragment) : (a ++ b).parts = glue a.parts b.parts := rfl

@[simp] theorem empty_append (a : Fragment) : empty ++ a = a := rfl

@[simp] theorem append_empty (a : Fragment) : a ++ empty = a :=
  congrArg Fragment.mk (glue_nil a.parts)

theorem append_assoc (a b c : Fragment) : a ++ b ++ c = a ++ (b ++ c) :=
  congrArg Fragment.mk (glue_assoc a.parts b.parts c.parts)

@[simp] theorem raw_empty : raw "" = empty := by decide

theorem raw_of_ne_empty {s : String} (h : s ≠ "") : raw s = ⟨[.raw s]⟩ := by
  rw [raw, if_neg (by simpa using h)]

/-- Raw texts side by side are one raw text. -/
theorem raw_append_raw (s t : String) : raw s ++ raw t = raw (s ++ t) := by
  by_cases hs : s = ""
  · simp [hs]
  · by_cases ht : t = ""
    · simp [ht]
    · have hst : s ++ t ≠ "" := fun h => hs (String.append_eq_empty_iff.mp h).1
      rw [raw_of_ne_empty hs, raw_of_ne_empty ht, raw_of_ne_empty hst]
      rfl

/-- Without a separator, joining is concatenation. -/
theorem join_empty_cons (a : Fragment) (as : List Fragment) :
    join "" (a :: as) = a ++ join "" as := by
  cases as with
  | nil => simp [join]
  | cons b as => simp [join]

/-! ### Views of a concatenation -/

@[simp] theorem binds_empty : empty.binds = [] := rfl

@[simp] theorem binds_raw (s : String) : (raw s).binds = [] := by
  unfold raw; split <;> rfl

@[simp] theorem binds_bind (s : Scalar) : (bind s).binds = [s] := rfl

@[simp] theorem binds_placeholder : placeholder.binds = [] := rfl

@[simp] theorem binds_append (a b : Fragment) : (a ++ b).binds = a.binds ++ b.binds := by
  obtain ⟨ps⟩ := a
  obtain ⟨qs⟩ := b
  simp only [binds, parts_append]
  fun_induction glue ps qs with
  | case1 => simp
  | case2 => simp
  | case3 p ps qs hp ih => cases p <;> simp [ih]

@[simp] theorem bindCount_append (a b : Fragment) :
    (a ++ b).bindCount = a.bindCount + b.bindCount := by
  simp [bindCount]

@[simp] theorem placeholderCount_append (a b : Fragment) :
    (a ++ b).placeholderCount = a.placeholderCount + b.placeholderCount := by
  obtain ⟨ps⟩ := a
  obtain ⟨qs⟩ := b
  simp only [placeholderCount, parts_append]
  fun_induction glue ps qs with
  | case1 => simp
  | case2 => simp
  | case3 p ps qs hp ih => simp only [List.count_cons, ih]; omega

/-- Rendering goes on behind the first parts with as many more scalars to the left as these bind. -/
theorem renderParts_glue (config : Config) (n : Nat) (ps qs : List Part) :
    renderParts config n (glue ps qs) =
      let first := renderParts config n ps
      let second := renderParts config (n + (Fragment.mk ps).bindCount) qs
      ⟨first.sql ++ second.sql, first.params ++ second.params⟩ := by
  fun_induction glue ps qs generalizing n with
  | case1 => simp [renderParts, bindCount, binds]
  | case2 => simp [renderParts, bindCount, binds, String.append_assoc]
  | case3 p ps qs hp ih =>
    cases p with
    | raw s => simp [renderParts, ih, bindCount, binds, String.append_assoc]
    | placeholder => simp [renderParts, ih, bindCount, binds, String.append_assoc]
    | bind v =>
      have hn : n + ((Fragment.mk ps).bindCount + 1) = n + 1 + (Fragment.mk ps).bindCount := by
        omega
      cases h : config.render <;>
        simp [renderParts, ih, h, bindCount, binds, String.append_assoc] <;>
        simp_all [bindCount, binds]

/-- The text and parameters of a concatenation. -/
theorem render_append (config : Config) (a b : Fragment) :
    (a ++ b).render config =
      let second := renderParts config a.bindCount b.parts
      ⟨(a.render config).sql ++ second.sql, (a.render config).params ++ second.params⟩ := by
  simp [render, renderParts_glue]

end BoundSql.Fragment
