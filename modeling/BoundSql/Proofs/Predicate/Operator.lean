import BoundSql.Predicate.Clause
import BoundSql.Proofs.Text.Words

/-!
# Operators are read in a normal form

What is read from a text is written as that text, trimmed and in upper case; and reading it again
changes nothing. So the texts that are kept, because no known operator is written so, are exactly
those that trimming and upper case leave alone (`operators_read_in_normal_form`).
-/

namespace BoundSql

namespace Operator

theorem text_parse {s : String} (h : Text.upper (Text.trim s) ≠ "") :
    (parse s).text = Text.upper (Text.trim s) := by
  rw [parse, if_neg h]
  cases hknown : known.find? fun op => op.text = Text.upper (Text.trim s) with
  | none => rfl
  | some op => simpa using List.find?_some hknown

/-- An operator that was read from a text is read from its own text as well. -/
theorem parse_text_parse (s : String) : parse (parse s).text = parse s := by
  by_cases h : Text.upper (Text.trim s) = ""
  · have heq : parse s = .eq := by rw [parse, if_pos h]
    rw [heq]
    decide
  · rw [text_parse h, parse, Text.upper_trim_upper_trim, parse]

/-! ### Known operators -/

/-- The operator has a meaning of its own. -/
def IsKnown (op : Operator) : Prop := ∀ t, op ≠ .other t

theorem mem_known_iff {op : Operator} : op ∈ known ↔ op.IsKnown := by
  cases op <;> simp [known, IsKnown]

/-- The texts of known operators are in normal form, and no two operators have the same. -/
theorem known_texts : ∀ op ∈ known, op.text ≠ "" ∧ Text.trim op.text = op.text ∧
    (∀ k ∈ op.text.toList.map Char.toNat, k < 97) ∧
    known.find? (fun other => other.text = op.text) = some op := by decide

theorem parse_text_of_isKnown {op : Operator} (h : op.IsKnown) : parse op.text = op := by
  obtain ⟨hne, htrim, hcapitals, hfind⟩ := known_texts op (mem_known_iff.mpr h)
  have hnormal : Text.upper (Text.trim op.text) = op.text := by
    rw [htrim, Text.upper_eq_self (List.forall_mem_map.mp hcapitals)]
  rw [parse, hnormal, if_neg hne, hfind]
  rfl

/-! ### Other texts -/

/-- The text stands for itself: it is in normal form, and no known operator is written so. -/
structure IsForeign (t : String) : Prop where
  nonempty : t ≠ ""
  trimmed : Text.Trimmed t.toList
  upper : Text.upper t = t
  unknown : ∀ op : Operator, op.IsKnown → op.text ≠ t

theorem eq_upper_trim_of_parse {s t : String} (h : parse s = .other t) :
    t = Text.upper (Text.trim s) ∧ t ≠ "" ∧
      known.find? (fun op => op.text = Text.upper (Text.trim s)) = none := by
  by_cases hempty : Text.upper (Text.trim s) = ""
  · rw [parse, if_pos hempty] at h
    cases h
  · rw [parse, if_neg hempty] at h
    cases hfind : known.find? fun op => op.text = Text.upper (Text.trim s) with
    | some op =>
      rw [hfind] at h
      -- what is found in the list is no other text
      exact absurd h (mem_known_iff.mp (List.mem_of_find?_eq_some hfind) t)
    | none =>
      rw [hfind] at h
      obtain rfl := other.inj h
      exact ⟨rfl, hempty, rfl⟩

theorem isForeign_of_parse {s t : String} (h : parse s = .other t) : IsForeign t := by
  obtain ⟨heq, hempty, hfind⟩ := eq_upper_trim_of_parse h
  refine ⟨hempty, ?_, ?_, ?_⟩
  · have htrim : Text.trimChars t.toList = t.toList := by
      rw [← Text.toList_trim, heq, Text.trim_upper_trim]
    rw [← htrim]
    exact Text.trimmed_trimChars t.toList
  · rw [heq, Text.upper_upper]
  · intro op hop
    have hne := List.find?_eq_none.mp hfind op (mem_known_iff.mpr hop)
    rw [heq]
    simpa using hne

theorem parse_of_isForeign {t : String} (h : IsForeign t) : parse t = .other t := by
  have hnormal : Text.upper (Text.trim t) = t := by
    rw [Text.trim, h.trimmed.trimChars_eq, String.ofList_toList, h.upper]
  have hfind : known.find? (fun op => op.text = t) = none := by
    rw [List.find?_eq_none]
    intro op hop
    simpa using h.unknown op (mem_known_iff.mp hop)
  rw [parse, hnormal, if_neg h.nonempty, hfind]
  rfl

end Operator

/-! ### Reading the operators of a clause again -/

namespace Predicate

/-- The predicate may have its operator read again, if it was read from a text in the first place. -/
inductive Rereads (p : Predicate) : Predicate → Prop
  | kept : Rereads p p
  | reread {s : String} : p.operator = .parse s →
      Rereads p (p.withOperator (.parse p.operator.text))

theorem Rereads.eq {p q : Predicate} (h : p.Rereads q) : q = p := by
  cases h with
  | kept => rfl
  | reread hop => rw [withOperator, hop, Operator.parse_text_parse, ← hop]

end Predicate

open Operator (parse IsKnown IsForeign) in
/-- Reading an operator from its own text gives the operator again, if it is known or was read from
some text; the other texts that are ever read are those that stand for themselves. So a clause does
not change when operators in it are read again. -/
theorem operators_read_in_normal_form :
    (∀ s, parse (parse s).text = parse s) ∧
      (∀ op : Operator, op.IsKnown → parse op.text = op) ∧
      (∀ t, (∃ s, parse s = .other t) ↔ IsForeign t) ∧
      ∀ (keyword : ClauseKeyword) (quote : Bool) (ps qs : List Predicate),
        List.Forall₂ Predicate.Rereads ps qs →
          compileClause keyword quote qs = compileClause keyword quote ps := by
  refine ⟨Operator.parse_text_parse, fun _ => Operator.parse_text_of_isKnown, ?_, ?_⟩
  · intro t
    constructor
    · rintro ⟨s, hs⟩
      exact Operator.isForeign_of_parse hs
    · intro ht
      exact ⟨t, Operator.parse_of_isForeign ht⟩
  · intro keyword quote ps qs h
    have heq : qs = ps := by
      induction h with
      | nil => rfl
      | cons hp _ ih => rw [hp.eq, ih]
    rw [heq]

end BoundSql
