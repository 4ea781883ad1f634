import BoundSql.Builder.Executor
import BoundSql.Json.Descriptor
import BoundSql.Proofs.Statement.Slots

/-!
# Placeholders with and without quoting

A placeholder of the caller is recorded as one whether values are quoted or not. A scalar that is
the text `?` is recorded as a placeholder only where values are quoted; elsewhere it is written as
plain text, and no executor is told of it. So the two ways of writing a value agree on its
placeholders if and only if no leaf of the value is such a text (`placeholders_by_quoting`).
-/

namespace BoundSql

namespace Value

mutual

/-- How many leaves of a value are scalars with the text `?`. -/
def questionTexts : Value → Nat
  | .scalar s => if s = .text "?" then 1 else 0
  | .placeholder | .statement _ => 0
  | .list items => listQuestionTexts items

def listQuestionTexts : List Value → Nat
  | [] => 0
  | v :: vs => questionTexts v + listQuestionTexts vs

end

/-! ### Slots that are supplied -/

theorem count_supplied_scalar (s : Scalar) :
    (s.slots true).count .supplied =
      (s.slots false).count .supplied + (Value.scalar s).questionTexts := by
  by_cases h : s = .text "?" <;> simp [Scalar.slots, questionTexts, h]

mutual

theorem count_supplied : ∀ v : Value,
    (v.slots true).count .supplied = (v.slots false).count .supplied + v.questionTexts
  | .scalar s => count_supplied_scalar s
  | .placeholder => rfl
  | .statement _ => rfl
  | .list items => by
    rw [slots, slots, questionTexts, count_supplied_list items]

theorem count_supplied_list : ∀ vs : List Value,
    (listSlots true vs).count .supplied =
      (listSlots false vs).count .supplied + listQuestionTexts vs
  | [] => rfl
  | v :: vs => by
    rw [listSlots, listSlots, listQuestionTexts, List.count_append, List.count_append,
      count_supplied v, count_supplied_list vs]
    omega

end

theorem placeholderCount_joined (v : Value) :
    (v.joined true).placeholderCount = (v.joined false).placeholderCount + v.questionTexts := by
  rw [Fragment.placeholderCount_eq_count_slots, Fragment.placeholderCount_eq_count_slots,
    slots_joined, slots_joined, count_supplied]

/-! ### Item by item -/

/-- The values that are written separately: the items of a list, or the value itself. -/
def items : Value → List Value
  | .list items => items
  | v => [v]

theorem quotedItems_eq_map (quote : Bool) (v : Value) :
    v.quotedItems quote = v.items.map (joined quote) := by
  have hlist : ∀ vs : List Value, joinedItems quote vs = vs.map (joined quote) := by
    intro vs
    induction vs with
    | nil => rfl
    | cons v vs ih => rw [joinedItems, List.map_cons, ih]
  cases v with
  | list items => exact hlist items
  | scalar _ | placeholder | statement _ => rfl

theorem questionTexts_eq_zero_iff (v : Value) :
    v.questionTexts = 0 ↔ ∀ item ∈ v.items, item.questionTexts = 0 := by
  have hlist : ∀ vs : List Value,
      listQuestionTexts vs = 0 ↔ ∀ item ∈ vs, item.questionTexts = 0 := by
    intro vs
    induction vs with
    | nil => simp [listQuestionTexts]
    | cons v vs ih => rw [listQuestionTexts, Nat.add_eq_zero_iff, ih, List.forall_mem_cons]
  cases v with
  | list items => exact hlist items
  | scalar _ | placeholder | statement _ => simp [items]

/-! ### Values that are read -/

theorem questionTexts_ofText (s : String) : (ofText s).questionTexts = 0 := by
  unfold ofText
  split
  · rfl
  · next h => simp [questionTexts, h]

/-- What is read where no array is. -/
theorem questionTexts_of_scalar (t : Json.Tree) {v : Value}
    (h : (match Scalar.ofJson? t with
      | some (.text s) => some (ofText s)
      | some s => some (.scalar s)
      | none => none) = some v) : v.questionTexts = 0 := by
  split at h
  · next s _ =>
    cases h
    exact questionTexts_ofText s
  · next s hne _ =>
    cases h
    have htext : s ≠ .text "?" := by
      rintro rfl
      exact hne "?" rfl
    simp [questionTexts, htext]
  · cases h

mutual

theorem questionTexts_of_ofJson? : ∀ (t : Json.Tree) (levels : Nat) {v : Value},
    ofJson? levels t = some v → v.questionTexts = 0
  | .array ts, levels, v, h => by
    rw [ofJson?, Option.ite_none_right_eq_some] at h
    obtain ⟨vs, hvs, rfl⟩ := Option.map_eq_some_iff.mp h.2
    exact questionTexts_of_listOfJson? ts (levels - 1) hvs
  | .null, _, _, h => questionTexts_of_scalar .null h
  | .bool b, _, _, h => questionTexts_of_scalar (.bool b) h
  | .number n, _, _, h => questionTexts_of_scalar (.number n) h
  | .string s, _, _, h => questionTexts_of_scalar (.string s) h
  | .object members, _, _, h => questionTexts_of_scalar (.object members) h

theorem questionTexts_of_listOfJson? : ∀ (ts : List Json.Tree) (levels : Nat) {vs : List Value},
    listOfJson? levels ts = some vs → listQuestionTexts vs = 0
  | [], _, _, h => by
    cases h
    rfl
  | t :: ts, levels, vs, h => by
    rw [listOfJson?] at h
    split at h
    · next v rest hv hrest =>
      cases h
      rw [listQuestionTexts, questionTexts_of_ofJson? t levels hv,
        questionTexts_of_listOfJson? ts levels hrest]
    · cases h

end

/-! ### The placeholders of a value -/

/-- With quoting on, a value has a placeholder more for each of its leaves that is the text `?`, in
all and item by item. So the two ways of writing it agree on the placeholders, in all or item by
item, exactly if there is no such leaf; and there is none in a value that was read. -/
theorem placeholders_by_quoting (v : Value) :
    (v.joined true).placeholderCount = (v.joined false).placeholderCount + v.questionTexts ∧
      (v.quotedItems true).map Fragment.placeholderCount =
        v.items.map (fun item => (item.joined false).placeholderCount + item.questionTexts) ∧
      ((v.joined true).placeholderCount = (v.joined false).placeholderCount ↔
        v.questionTexts = 0) ∧
      ((v.quotedItems true).map Fragment.placeholderCount =
        (v.quotedItems false).map Fragment.placeholderCount ↔ v.questionTexts = 0) ∧
      ((∃ s, v = ofText s) ∨ (∃ levels t, ofJson? levels t = some v) → v.questionTexts = 0) := by
  refine ⟨v.placeholderCount_joined, ?_, ?_, ?_, ?_⟩
  · rw [quotedItems_eq_map, List.map_map]
    exact List.map_congr_left fun item _ => item.placeholderCount_joined
  · rw [v.placeholderCount_joined]
    omega
  · rw [quotedItems_eq_map, quotedItems_eq_map, List.map_map, List.map_map, List.map_inj_left,
      questionTexts_eq_zero_iff]
    refine forall₂_congr fun item _ => ?_
    rw [Function.comp_apply, Function.comp_apply, item.placeholderCount_joined]
    omega
  · rintro (⟨s, rfl⟩ | ⟨levels, t, h⟩)
    · exact questionTexts_ofText s
    · exact questionTexts_of_ofJson? t levels h

/-- The text `?`, given as a scalar, is a placeholder with quoting on and none with quoting off. -/
theorem placeholders_of_question_text :
    ¬∀ v : Value, (v.joined true).placeholderCount = (v.joined false).placeholderCount ∧
      (v.quotedItems true).map Fragment.placeholderCount =
        (v.quotedItems false).map Fragment.placeholderCount := by
  intro h
  have hscalar := (h (.scalar (.text "?"))).1
  exact absurd hscalar (by decide)

end Value

/-- So a statement with such a text is handed over to an executor that numbers its parameters. -/
example :
    ((Builder.ofConfig {}).insert false "t" (.scalar (.text "?")) []).builder.statementFor
        .numbered = .error (.invalidArgument (.unboundPlaceholders 1)) ∧
      ((Builder.ofConfig { autoQuoteValues := false }).insert false "t" (.scalar (.text "?"))
        []).builder.statementFor .numbered = .ok ⟨"INSERT INTO t VALUES (?)", []⟩ := ⟨rfl, rfl⟩

end BoundSql
