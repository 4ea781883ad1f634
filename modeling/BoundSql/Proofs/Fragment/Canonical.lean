import BoundSql.Fragment.Lemmas
import BoundSql.Proofs.Number.Digits
import Mathlib.Data.List.Chain
import Mathlib.Data.List.Forall2

/-!
# Canonical fragments

A fragment is canonical if none of its raw parts is empty and no two of them stand side by side. Any
sequence of parts has one canonical form, in which neighbouring raw texts are merged and empty ones
are dropped. Gluing keeps to it: what is glued together from the forms of two sequences is the form
of their concatenation.

    glue_merged        :  glue (merged ps) (merged qs) = merged (ps ++ qs)
    merged_eq_self_iff :  merged ps = ps ↔ Canonical ps
-/

namespace BoundSql

namespace Part

def isRaw : Part → Bool
  | .raw _ => true
  | .bind _ | .placeholder => false

/-- Put a part in front of others: raw text joins raw text, and empty raw text is dropped. -/
def prepend : Part → List Part → List Part
  | .raw s, .raw t :: ps => .raw (s ++ t) :: ps
  | .raw s, ps => if s = "" then ps else .raw s :: ps
  | p, ps => p :: ps

end Part

/-- The parts with neighbouring raw texts merged and empty ones dropped. -/
def merged (ps : List Part) : List Part := ps.foldr Part.prepend []

/-- Raw text is neither empty nor next to raw text. -/
structure Canonical (ps : List Part) : Prop where
  filled : .raw "" ∉ ps
  separated : ps.IsChain fun p q => ¬(p.isRaw = true ∧ q.isRaw = true)

/-! ### Merging raw text -/

@[simp] theorem merged_nil : merged [] = [] := rfl

@[simp] theorem merged_cons (p : Part) (ps : List Part) :
    merged (p :: ps) = p.prepend (merged ps) := rfl

theorem canonical_nil : Canonical [] := ⟨List.not_mem_nil, .nil⟩

theorem canonical_cons_iff {p : Part} {ps : List Part} :
    Canonical (p :: ps) ↔
      p ≠ .raw "" ∧ (∀ q ∈ ps.head?, ¬(p.isRaw = true ∧ q.isRaw = true)) ∧ Canonical ps := by
  constructor
  · rintro ⟨hfilled, hseparated⟩
    rw [List.mem_cons, not_or] at hfilled
    rw [List.isChain_cons] at hseparated
    exact ⟨fun h => hfilled.1 h.symm, hseparated.1, hfilled.2, hseparated.2⟩
  · rintro ⟨hp, hhead, hps⟩
    refine ⟨?_, List.isChain_cons.mpr ⟨hhead, hps.separated⟩⟩
    rw [List.mem_cons, not_or]
    exact ⟨fun h => hp h.symm, hps.filled⟩

/-- Text that is put in front of raw text is merged with it. -/
theorem Part.prepend_raw_raw (s t : String) (ps : List Part) :
    (Part.raw s).prepend (.raw t :: ps) = .raw (s ++ t) :: ps := rfl

/-- Anywhere else, text is a part of its own, unless it is empty. -/
theorem Part.prepend_raw {ps : List Part} (h : ∀ q ∈ ps.head?, q.isRaw = false) (s : String) :
    (Part.raw s).prepend ps = if s = "" then ps else .raw s :: ps := by
  cases ps with
  | nil => rfl
  | cons q ps =>
    cases q with
    | raw t => cases h (.raw t) rfl
    | bind v | placeholder => rfl

theorem Canonical.prepend {ps : List Part} (h : Canonical ps) (p : Part) :
    Canonical (p.prepend ps) := by
  cases p with
  | bind v =>
    refine canonical_cons_iff.mpr ⟨Part.noConfusion, ?_, h⟩
    rintro q - ⟨hv, -⟩
    cases hv
  | placeholder =>
    refine canonical_cons_iff.mpr ⟨Part.noConfusion, ?_, h⟩
    rintro q - ⟨hv, -⟩
    cases hv
  | raw s =>
    by_cases hraw : ∃ t rest, ps = .raw t :: rest
    · obtain ⟨t, rest, rfl⟩ := hraw
      obtain ⟨ht, hhead, hrest⟩ := canonical_cons_iff.mp h
      refine canonical_cons_iff.mpr ⟨fun hst => ht ?_, hhead, hrest⟩
      -- the text behind is not empty, so neither is the merged one
      injection hst with hst
      rw [(String.append_eq_empty_iff.mp hst).2]
    · have hhead : ∀ q ∈ ps.head?, q.isRaw = false := by
        intro q hq
        obtain ⟨rest, rfl⟩ := List.head?_eq_some_iff.mp hq
        cases q with
        | raw t => exact absurd ⟨t, rest, rfl⟩ hraw
        | bind v | placeholder => rfl
      rw [Part.prepend_raw hhead]
      split
      · exact h
      · next hs =>
        refine canonical_cons_iff.mpr ⟨fun h => hs (Part.raw.inj h), ?_, h⟩
        rintro q hq ⟨-, hqraw⟩
        rw [hhead q hq] at hqraw
        cases hqraw

theorem canonical_merged (ps : List Part) : Canonical (merged ps) := by
  induction ps with
  | nil => exact canonical_nil
  | cons p ps ih => exact ih.prepend p

/-- A part that may stand in front of others is put there as it is. -/
theorem Canonical.prepend_eq {p : Part} {ps : List Part} (h : Canonical (p :: ps)) :
    p.prepend ps = p :: ps := by
  obtain ⟨hp, hhead, -⟩ := canonical_cons_iff.mp h
  cases p with
  | bind v | placeholder => rfl
  | raw s =>
    rw [Part.prepend_raw fun q hq => ?_, if_neg fun hs => hp (congrArg Part.raw hs)]
    simpa using fun hraw => hhead q hq ⟨rfl, hraw⟩

theorem merged_eq_self_iff {ps : List Part} : merged ps = ps ↔ Canonical ps := by
  constructor
  · intro h
    rw [← h]
    exact canonical_merged ps
  · intro h
    induction ps with
    | nil => rfl
    | cons p ps ih =>
      rw [merged_cons, ih (canonical_cons_iff.mp h).2.2, h.prepend_eq]

/-! ### Gluing -/

namespace Fragment

/-- Only raw text takes part in a seam. -/
theorem glue_cons {p : Part} (h : p.isRaw = false) (ps qs : List Part) :
    glue (p :: ps) qs = p :: glue ps qs := by
  cases p with
  | raw s => cases h
  | bind v | placeholder => simp [glue]

/-- What is glued behind does not change how a part is put in front. -/
theorem glue_prepend (p : Part) (ps qs : List Part) :
    glue (p.prepend ps) qs = p.prepend (glue ps qs) := by
  cases p with
  | bind v => exact glue_cons rfl ps qs
  | placeholder => exact glue_cons rfl ps qs
  | raw s =>
    cases ps with
    | nil =>
      cases qs with
      | nil => simp
      | cons q qs =>
        by_cases hs : s = "" <;> cases q <;> simp [Part.prepend, glue, hs]
    | cons p ps =>
      cases p with
      | bind v | placeholder =>
        rw [glue_cons rfl]
        by_cases hs : s = "" <;> simp [Part.prepend, glue, hs]
      | raw t =>
        rw [Part.prepend_raw_raw]
        cases ps with
        | nil => cases qs with
          | nil => rfl
          | cons q qs => cases q <;> simp [Part.prepend, glue, String.append_assoc]
        | cons p ps => rw [glue_cons_cons, glue_cons_cons, Part.prepend_raw_raw]

/-- The canonical form of a concatenation is glued together from the forms of its two parts. -/
theorem glue_merged (ps qs : List Part) :
    glue (merged ps) (merged qs) = merged (ps ++ qs) := by
  induction ps with
  | nil => rfl
  | cons p ps ih => rw [merged_cons, glue_prepend, ih, List.cons_append, merged_cons]

end Fragment

theorem Canonical.glue {ps qs : List Part} (hp : Canonical ps) (hq : Canonical qs) :
    Canonical (Fragment.glue ps qs) := by
  rw [← merged_eq_self_iff.mpr hp, ← merged_eq_self_iff.mpr hq, Fragment.glue_merged]
  exact canonical_merged (ps ++ qs)

/-! ### Equality -/

/-- The parts are equal one by one, with scalars compared as values. -/
def Agree (ps qs : List Part) : Prop := List.Forall₂ (fun p q => p.valueEq q = true) ps qs

namespace Fragment

theorem valueEq_iff_agree (a b : Fragment) : a.valueEq b = true ↔ Agree a.parts b.parts := by
  rw [valueEq, Agree, List.forall₂_iff_zip, Bool.and_eq_true, beq_iff_eq, List.all_eq_true]
  exact and_congr_right fun _ => ⟨fun h p q hpq => h (p, q) hpq, fun h x hx => h hx⟩

/-! ### Emptiness -/

theorem literal_ne_empty (escape : Bool) (v : Scalar) : v.literal escape ≠ "" := by
  cases v with
  | int n =>
    intro h
    have hdigits : Nat.toDigits 10 n.toInt.natAbs = [] := by
      have hchars := congrArg String.toList h
      rw [Scalar.literal, Number.toList_integerText, String.toList_empty] at hchars
      exact (List.append_eq_nil_iff.mp hchars).2
    exact Nat.toDigits_ne_nil hdigits
  | float x => simp [Scalar.literal]
  | text s => simp [Scalar.literal]

theorem placeholder_ne_empty (style : PlaceholderStyle) (index : Nat) :
    style.placeholder index ≠ "" := by
  cases style <;> simp [PlaceholderStyle.placeholder]

/-- Under any options, parts write nothing only if they are raw texts without a character. -/
theorem sql_renderParts_eq_empty_iff (config : Config) (bound : Nat) (ps : List Part) :
    (renderParts config bound ps).sql = "" ↔ (Fragment.mk ps).isEmpty = true := by
  induction ps generalizing bound with
  | nil => exact ⟨fun _ => rfl, fun _ => rfl⟩
  | cons p ps ih =>
    cases p with
    | raw s => simp [renderParts, isEmpty, String.append_eq_empty_iff, ih]
    | placeholder => simp [renderParts, isEmpty, String.append_eq_empty_iff]
    | bind v =>
      cases hr : config.render with
      | literal => simp [renderParts, isEmpty, hr, String.append_eq_empty_iff, literal_ne_empty]
      | parameterized =>
        simp [renderParts, isEmpty, hr, String.append_eq_empty_iff, placeholder_ne_empty]

end Fragment

end BoundSql
