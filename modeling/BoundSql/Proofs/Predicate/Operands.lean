import BoundSql.Proofs.Fragment.Canonical
import BoundSql.Proofs.Predicate.Grammar

/-!
# Operands

Every predicate of a clause that takes an operand is written with at least one. Each operand, and
each item of an operand that is a list, has a text of its own if and only if no list inside the
value is empty (`operands_of_clause`): a list without items is refused where it is the whole value,
but not where it is an item.
-/

namespace BoundSql

open Fragment (raw)

/-! ### Empty fragments -/

namespace Fragment

@[simp] theorem isEmpty_raw (s : String) : (raw s).isEmpty = s.isEmpty := by
  unfold raw
  split
  · next h =>
    rw [h]
    rfl
  · next h => simp [isEmpty]

@[simp] theorem isEmpty_append (a b : Fragment) :
    (a ++ b).isEmpty = (a.isEmpty && b.isEmpty) := by
  obtain ⟨ps⟩ := a
  obtain ⟨qs⟩ := b
  simp only [isEmpty, parts_append]
  fun_induction glue ps qs with
  | case1 qs => rfl
  | case2 s t qs =>
    have hst : (s ++ t).isEmpty = (s.isEmpty && t.isEmpty) := by
      rw [Bool.eq_iff_iff, Bool.and_eq_true]
      simp only [String.isEmpty_iff, String.append_eq_empty_iff]
    simp [hst, Bool.and_assoc]
  | case3 p ps qs hp ih => rw [List.all_cons, ih, List.all_cons, Bool.and_assoc]

/-- A list of fragments is written with some text if the first of them is. -/
theorem isEmpty_join_cons {separator : String} {a : Fragment} (as : List Fragment)
    (h : a.isEmpty = false) : (join separator (a :: as)).isEmpty = false := by
  cases as with
  | nil => exact h
  | cons b as => simp [join, h]

end Fragment

/-! ### Lists inside a value -/

namespace Value

mutual

/-- The value is no empty list, and no list inside it is. -/
def isFilled : Value → Bool
  | .list items => !items.isEmpty && listFilled items
  | .scalar _ | .placeholder | .statement _ => true

def listFilled : List Value → Bool
  | [] => true
  | v :: vs => isFilled v && listFilled vs

end

mutual

/-- What is written for each operand of a value and, at every depth, for each item of an operand
that is a list. -/
def operands : Value → List Fragment
  | .list items => itemOperands items
  | v => [v.joined true]

def itemOperands : List Value → List Fragment
  | [] => []
  | v :: vs => v.joined true :: (operands v ++ itemOperands vs)

end

theorem joinedItems_subset_itemOperands (vs : List Value) :
    joinedItems true vs ⊆ itemOperands vs := by
  induction vs with
  | nil => exact List.nil_subset _
  | cons v vs ih =>
    exact List.cons_subset_cons _ (List.subset_append_of_subset_right (operands v) ih)

theorem quotedItems_subset_operands (v : Value) : v.quotedItems true ⊆ v.operands := by
  cases v with
  | list items => exact joinedItems_subset_itemOperands items
  | scalar _ | placeholder | statement _ => exact List.Subset.refl _

theorem isEmpty_joined_of_isFilled : ∀ {v : Value}, v.isFilled = true →
    (v.joined true).isEmpty = false
  | .scalar s, _ => by
    rw [joined, Scalar.quoted, if_pos rfl]
    split <;> rfl
  | .placeholder, _ => rfl
  | .statement sub, _ => by simp [joined, Fragment.parenthesized]
  | .list [], h => by cases h
  | .list (v :: vs), h => by
    have hv : v.isFilled = true := by
      simp only [isFilled, listFilled, Bool.and_eq_true] at h
      exact h.2.1
    exact Fragment.isEmpty_join_cons _ (isEmpty_joined_of_isFilled hv)

/-- A value that is no list is its own operand. -/
theorem forall_mem_singleton_joined {v : Value} (h : v.isFilled = true) :
    (∀ f ∈ [v.joined true], f.isEmpty = false) ↔ v.isFilled = true := by
  simp [h, isEmpty_joined_of_isFilled h]

mutual

theorem operands_filled_iff : ∀ {v : Value}, v ≠ .list [] →
    ((∀ f ∈ v.operands, f.isEmpty = false) ↔ v.isFilled = true)
  | .list items, hne => by
    have hitems : items.isEmpty = false := by
      cases items with
      | nil => exact absurd rfl hne
      | cons _ _ => rfl
    rw [operands, itemOperands_filled_iff items, isFilled, hitems, Bool.not_false, Bool.true_and]
  | .scalar s, _ => forall_mem_singleton_joined rfl
  | .placeholder, _ => forall_mem_singleton_joined rfl
  | .statement sub, _ => forall_mem_singleton_joined rfl

theorem itemOperands_filled_iff : ∀ vs : List Value,
    (∀ f ∈ itemOperands vs, f.isEmpty = false) ↔ listFilled vs = true
  | [] => by simp [itemOperands, listFilled]
  | v :: vs => by
    have hrest := itemOperands_filled_iff vs
    rw [itemOperands, List.forall_mem_cons, List.forall_mem_append, listFilled, Bool.and_eq_true,
      hrest]
    by_cases hv : v = .list []
    · -- the one value that is written without any text
      rw [hv]
      constructor
      · rintro ⟨⟨⟩, -⟩
      · rintro ⟨⟨⟩, -⟩
    · rw [operands_filled_iff hv]
      exact ⟨And.right, fun h => ⟨isEmpty_joined_of_isFilled h.1, h⟩⟩

end

end Value

/-! ### Predicates with operands -/

namespace Predicate

/-- The predicate is written with its value: it is no test for `NULL`, and no membership in the
empty list, which its operator decides. -/
def TakesOperand (p : Predicate) : Prop :=
  ¬p.operator.IsNullTest ∧ ¬(p.operator.IsMembership ∧ p.value = .list [])

variable {quote : Bool} {p : Predicate}

theorem quotedItems_ne_nil {v : Value} (h : v ≠ .list []) : v.quotedItems quote ≠ [] := by
  cases v with
  | list items =>
    cases items with
    | nil => exact absurd rfl h
    | cons _ _ => exact List.cons_ne_nil _ _
  | scalar _ | placeholder | statement _ => exact List.cons_ne_nil _ _

/-- The operands stand in a row behind the expression and the operator. -/
theorem Writes.operands {body : Fragment} (h : p.Writes quote body) (htakes : p.TakesOperand) :
    p.value ≠ .list [] ∧ ∃ opening separator closing : String,
      body = raw (p.head ++ " " ++ opening) ++ .join separator (p.value.quotedItems quote) ++
        raw closing := by
  obtain ⟨hnull, hempty⟩ := htakes
  cases h with
  | @range low high hop hvalue =>
    refine ⟨by simp [hvalue], "", " AND ", "", ?_⟩
    simp [hvalue, Value.quotedItems, Value.joinedItems, Fragment.join, Fragment.append_assoc]
  | never hop hvalue => exact absurd ⟨.inl hop, hvalue⟩ hempty
  | always hop hvalue => exact absurd ⟨.inr hop, hvalue⟩ hempty
  | @rows sub hop hvalue =>
    -- the parentheses of the statement are its own
    refine ⟨by simp [hvalue], "", ",", "", ?_⟩
    rw [← comparison_append_parenthesized, comparison_eq]
    simp [hvalue, Value.quotedItems, Value.joined, Fragment.join]
  | members hop hne _ =>
    exact ⟨hne, "(", ",", ")", by rw [operandText, String.append_assoc]; rfl⟩
  | nullTest hop => exact absurd hop hnull
  | comparison hop hne => exact ⟨hne, "", ",", "", by simp [operandText]⟩

theorem WritesLater.exists_writes {ps : List Predicate} {a : Fragment}
    (h : WritesLater quote ps a) (hp : p ∈ ps) :
    ∃ before body after, p.Writes quote body ∧ a = before ++ body ++ after := by
  induction h with
  | nil => cases hp
  | @cons q ps connector body rest _ hbody _ ih =>
    rcases List.mem_cons.mp hp with rfl | hp
    · exact ⟨_, body, rest, hbody, rfl⟩
    · obtain ⟨before, body', after, hbody', rfl⟩ := ih hp
      exact ⟨raw (" " ++ connector.text ++ " ") ++ body ++ before, body', after, hbody',
        by simp only [Fragment.append_assoc]⟩

end Predicate

/-- Every predicate of a clause has its place in it. -/
theorem WritesClause.exists_writes {keyword : ClauseKeyword} {quote : Bool} {ps : List Predicate}
    {a : Fragment} (h : WritesClause keyword quote ps a) {p : Predicate} (hp : p ∈ ps) :
    ∃ before body after, p.Writes quote body ∧ a = before ++ body ++ after := by
  cases h with
  | nil => cases hp
  | @cons q ps body rest hbody hrest =>
    rcases List.mem_cons.mp hp with rfl | hp
    · exact ⟨_, body, rest, hbody, rfl⟩
    · obtain ⟨before, body', after, hbody', rfl⟩ := hrest.exists_writes hp
      exact ⟨raw (" " ++ keyword.text ++ " ") ++ body ++ before, body', after, hbody',
        by simp only [Fragment.append_assoc]⟩

/-- In a clause with quoting on, a predicate that takes an operand is written with one or more. All
of them, and all items inside them, have a text if and only if no list inside the value is empty. -/
theorem operands_of_clause {keyword : ClauseKeyword} {ps : List Predicate} {a : Fragment}
    (h : compileClause keyword true ps = .ok a) {p : Predicate} (hp : p ∈ ps)
    (htakes : p.TakesOperand) :
    (∃ (before after : Fragment) (opening separator closing : String),
      a = before ++ raw (p.head ++ " " ++ opening) ++
        .join separator (p.value.quotedItems true) ++ raw closing ++ after) ∧
      p.value.quotedItems true ≠ [] ∧ p.value.quotedItems true ⊆ p.value.operands ∧
      ((∀ f ∈ p.value.operands, f.isEmpty = false) ↔ p.value.isFilled = true) := by
  obtain ⟨before, body, after, hbody, rfl⟩ := (compileClause_eq_ok_iff.mp h).exists_writes hp
  obtain ⟨hne, opening, separator, closing, rfl⟩ := hbody.operands htakes
  refine ⟨⟨before, after, opening, separator, closing, ?_⟩, Predicate.quotedItems_ne_nil hne,
    p.value.quotedItems_subset_operands, Value.operands_filled_iff hne⟩
  simp only [Fragment.append_assoc]

theorem operands_of_clause_of_filled_list :
    (Predicate.inList "x" [.list [.placeholder], .scalar (.int 1)]).value.isFilled = true ∧
      ∀ f ∈ (Predicate.inList "x" [.list [.placeholder], .scalar (.int 1)]).value.operands,
        f.isEmpty = false := by
  have hclause : compileClause .rows true
      [.ofValue "a" (.scalar (.int 0)), .inList "x" [.list [.placeholder], .scalar (.int 1)]] =
      .ok ⟨[.raw " WHERE a = ", .bind (.int 0), .raw " AND x IN (", .placeholder, .raw ",",
        .bind (.int 1), .raw ")"]⟩ := by decide
  have hfilled := operands_of_clause hclause (List.mem_cons_of_mem _ (List.mem_singleton_self _))
    ⟨by rintro (⟨⟨⟩⟩ | ⟨⟨⟩⟩), by rintro ⟨-, ⟨⟩⟩⟩
  exact ⟨by decide, hfilled.2.2.2.mpr (by decide)⟩

/-- A list of an empty list is compiled to no text at all. -/
theorem clause_without_operand_text :
    ¬∀ (keyword : ClauseKeyword) (ps : List Predicate) (a : Fragment),
      compileClause keyword true ps = .ok a → ∀ p ∈ ps, p.TakesOperand →
        p.value.quotedItems true ≠ [] ∧ ∀ f ∈ p.value.operands, f.isEmpty = false := by
  intro h
  have hclause : compileClause .rows true [.ofValue "x" (.list [.list []])] =
      .ok (raw " WHERE x = ") := by decide
  have hfilled := (h _ _ _ hclause _ (List.mem_singleton_self _)
    ⟨by rintro (⟨⟨⟩⟩ | ⟨⟨⟩⟩), by rintro ⟨⟨⟨⟩⟩ | ⟨⟨⟩⟩, -⟩⟩).2
  cases hfilled .empty (List.mem_singleton_self _)

/-- The other operators let an empty list through as well. -/
example :
    compileClause .rows true [.inList "x" [.scalar (.int 1), .list []]] =
        .ok ⟨[.raw " WHERE x IN (", .bind (.int 1), .raw ",)"]⟩ ∧
      compileClause .rows true [.between "x" (.list []) (.scalar (.int 2))] =
        .ok ⟨[.raw " WHERE x BETWEEN  AND ", .bind (.int 2)]⟩ := by decide

end BoundSql
