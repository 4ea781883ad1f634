import BoundSql.Fragment.Lemmas
import BoundSql.Predicate.Clause
import BoundSql.Proofs.Except
import BoundSql.Proofs.Text.Blank

/-!
# The grammar of clauses

Which clauses there are, said without their compiler: what each operator is written with, which
connector stands before a predicate, and which predicates are refused. A clause is compiled if and
only if every predicate is sound at its place, and then exactly as the grammar says; otherwise the
first predicate that is not decides the error (`clause_compiled_exactly`).
-/

namespace BoundSql

open Fragment (raw)

namespace Operator

/-- The value is a range. -/
def IsRange (op : Operator) : Prop := op = .between ∨ op = .notBetween

/-- The value is a set. -/
def IsMembership (op : Operator) : Prop := op = .inList ∨ op = .notInList

/-- The value does not matter. -/
def IsNullTest (op : Operator) : Prop := op = .isNull ∨ op = .isNotNull

/-- Every other operator compares with a value. -/
def IsComparison (op : Operator) : Prop := ¬op.IsRange ∧ ¬op.IsMembership ∧ ¬op.IsNullTest

end Operator

namespace Predicate

/-! ### Sound and faulty predicates -/

/-- The connector that a predicate asks for. -/
inductive Connects (p : Predicate) : Connector → Prop
  | absent : p.connector = none → Connects p .and
  | blank {s : String} : p.connector = some s → Text.trim s = "" → Connects p .and
  | and {s : String} : p.connector = some s → Text.upper (Text.trim s) = "AND" → Connects p .and
  | or {s : String} : p.connector = some s → Text.upper (Text.trim s) = "OR" → Connects p .or

/-- A connector is given, and it is no known word. -/
inductive BadConnector (p : Predicate) : ArgumentFault → Prop
  | of {s : String} : p.connector = some s → Text.trim s ≠ "" →
      Text.upper (Text.trim s) ≠ "AND" → Text.upper (Text.trim s) ≠ "OR" →
      BadConnector p (.connector s)

/-- The value does not fit the operator. -/
inductive BadValue (p : Predicate) : ArgumentFault → Prop
  | range : p.operator.IsRange → (∀ low high, p.value ≠ .list [low, high]) →
      BadValue p (.notTwoValues p.operator p.expression)
  | comparison : p.operator.IsComparison → p.value = .list [] →
      BadValue p (.valueMissing p.operator p.expression)

/-- What is wrong with the predicate at a place of a list. At the first place the connector does not
matter, and everywhere else a bad connector goes before a bad value. -/
def FaultyAt (place : Nat) (p : Predicate) (fault : ArgumentFault) : Prop :=
  (place ≠ 0 ∧ p.BadConnector fault) ∨
    ((place = 0 ∨ ∀ f, ¬p.BadConnector f) ∧ p.BadValue fault)

/-! ### What is written -/

/-- The expression and the operator. -/
def head (p : Predicate) : String := p.expression ++ " " ++ p.operator.text

/-- The values with commas between them. -/
def operandText (quote : Bool) (p : Predicate) : Fragment := .join "," (p.value.quotedItems quote)

/-- What is written for a predicate. -/
inductive Writes (quote : Bool) (p : Predicate) : Fragment → Prop
  | range {low high : Value} : p.operator.IsRange → p.value = .list [low, high] →
      Writes quote p
        (raw (p.head ++ " ") ++ low.joined quote ++ raw " AND " ++ high.joined quote)
  | never : p.operator = .inList → p.value = .list [] → Writes quote p (raw "1=0")
  | always : p.operator = .notInList → p.value = .list [] → Writes quote p (raw "1=1")
  | rows {sub : Fragment} : p.operator.IsMembership → p.value = .statement sub →
      Writes quote p (raw (p.head ++ " (") ++ sub ++ raw ")")
  | members : p.operator.IsMembership → p.value ≠ .list [] →
      (∀ sub, p.value ≠ .statement sub) →
      Writes quote p (raw (p.head ++ " (") ++ p.operandText quote ++ raw ")")
  | nullTest : p.operator.IsNullTest → Writes quote p (raw p.head)
  | comparison : p.operator.IsComparison → p.value ≠ .list [] →
      Writes quote p (raw (p.head ++ " ") ++ p.operandText quote)

/-- What is written for the predicates behind the first one. -/
inductive WritesLater (quote : Bool) : List Predicate → Fragment → Prop
  | nil : WritesLater quote [] .empty
  | cons {p : Predicate} {ps : List Predicate} {connector : Connector} {body rest : Fragment} :
      p.Connects connector → p.Writes quote body → WritesLater quote ps rest →
      WritesLater quote (p :: ps) (raw (" " ++ connector.text ++ " ") ++ body ++ rest)

end Predicate

/-- What is written for a list of predicates. -/
inductive WritesClause (keyword : ClauseKeyword) (quote : Bool) : List Predicate → Fragment → Prop
  | nil : WritesClause keyword quote [] .empty
  | cons {p : Predicate} {ps : List Predicate} {body rest : Fragment} :
      p.Writes quote body → Predicate.WritesLater quote ps rest →
      WritesClause keyword quote (p :: ps) (raw (" " ++ keyword.text ++ " ") ++ body ++ rest)

/-! ### The compiler of predicates -/

namespace Predicate

variable {quote : Bool} {p : Predicate}

/-- A word between blanks is one raw text. -/
theorem raw_blank_word (word : String) :
    raw " " ++ raw word ++ raw " " = raw (" " ++ word ++ " ") := by
  rw [Fragment.raw_append_raw, Fragment.raw_append_raw]

theorem comparison_eq (p : Predicate) : p.comparison = raw (p.head ++ " ") := by
  simp only [comparison, head, Fragment.raw_append_raw]

/-- A list, a single value and a statement are all written as their items. -/
theorem joined_value (quote : Bool) (p : Predicate) :
    p.value.joined quote = p.operandText quote := by
  rw [operandText]
  cases p.value <;> rfl

/-! #### Connectors -/

theorem resolvedConnector_of_given {s : String} (hgiven : p.connector = some s)
    (hword : Text.trim s ≠ "") : p.resolvedConnector = Connector.parse s := by
  rw [resolvedConnector, hgiven]
  exact if_neg fun hblank => hword ((Text.isBlank_iff_trim_eq_empty s).mp hblank)

/-- Uppercasing does not make a word of nothing. -/
theorem trim_ne_empty_of_upper {s word : String} (h : Text.upper (Text.trim s) = word)
    (hword : word ≠ "") : Text.trim s ≠ "" := by
  intro htrim
  rw [htrim] at h
  exact hword (h.symm.trans rfl)

theorem answers_resolvedConnector (p : Predicate) :
    Answers p.resolvedConnector p.Connects fun e =>
      ∃ fault, e = .invalidArgument fault ∧ p.BadConnector fault where
  ok c hc := by
    cases hc with
    | absent hgiven => rw [resolvedConnector, hgiven]
    | blank hgiven hblank =>
      rw [resolvedConnector, hgiven]
      exact if_pos ((Text.isBlank_iff_trim_eq_empty _).mpr hblank)
    | and hgiven hword | or hgiven hword =>
      have hne := trim_ne_empty_of_upper hword (by decide)
      rw [resolvedConnector_of_given hgiven hne, Connector.parse, hword]
      rfl
  error := by
    rintro _ ⟨_, rfl, hgiven, hne, hand, hor⟩
    rw [resolvedConnector_of_given hgiven hne, Connector.parse]
    split
    · next h => exact absurd h hand
    · next h => exact absurd h hor
    · rfl
  total := by
    cases hgiven : p.connector with
    | none => exact .inl ⟨_, .absent hgiven⟩
    | some s =>
      by_cases hne : Text.trim s = ""
      · exact .inl ⟨_, .blank hgiven hne⟩
      · by_cases hand : Text.upper (Text.trim s) = "AND"
        · exact .inl ⟨_, .and hgiven hand⟩
        · by_cases hor : Text.upper (Text.trim s) = "OR"
          · exact .inl ⟨_, .or hgiven hor⟩
          · exact .inr ⟨_, _, rfl, .of hgiven hne hand hor⟩

/-! #### Operators -/

theorem compile_of_range (h : p.operator.IsRange) :
    p.compile quote = p.compileRange quote := by
  rw [compile]
  rcases h with hop | hop <;> rw [hop]

theorem compile_of_nullTest (h : p.operator.IsNullTest) :
    p.compile quote = .ok (raw p.head) := by
  rw [compile, head, ← Fragment.raw_append_raw, ← Fragment.raw_append_raw]
  rcases h with hop | hop <;> rw [hop]

theorem compile_of_comparison (h : p.operator.IsComparison) :
    p.compile quote = p.compileComparison quote := by
  obtain ⟨hrange, hmembership, hnull⟩ := h
  rw [compile]
  cases hop : p.operator with
  | between => exact absurd (.inl hop) hrange
  | notBetween => exact absurd (.inr hop) hrange
  | inList => exact absurd (.inl hop) hmembership
  | notInList => exact absurd (.inr hop) hmembership
  | isNull => exact absurd (.inl hop) hnull
  | isNotNull => exact absurd (.inr hop) hnull
  | eq | ne | lt | gt | lte | gte | like | notLike | other _ => rfl

theorem eq_of_isEmpty {v : Value} (h : v.isEmpty = true) : v = .list [] := by
  cases v with
  | list items => rw [List.isEmpty_iff.mp h]
  | scalar _ | placeholder | statement _ => cases h

/-- Membership in the empty list is decided by the operator alone. -/
theorem compile_of_membership (h : p.operator.IsMembership) :
    p.compile quote =
      .ok (p.compileMembership quote (if p.operator = .inList then "1=0" else "1=1")) := by
  rw [compile]
  rcases h with hop | hop <;> rw [hop] <;> rfl

/-- Parentheses join the texts around them. -/
theorem comparison_append_parenthesized (p : Predicate) (a : Fragment) :
    p.comparison ++ a.parenthesized = raw (p.head ++ " (") ++ a ++ raw ")" := by
  rw [comparison_eq, Fragment.parenthesized, ← Fragment.append_assoc, ← Fragment.append_assoc,
    Fragment.raw_append_raw, String.append_assoc]
  rfl

theorem answers_compile (quote : Bool) (p : Predicate) :
    Answers (p.compile quote) (p.Writes quote) fun e =>
      ∃ fault, e = .invalidArgument fault ∧ p.BadValue fault where
  ok a ha := by
    cases ha with
    | range hop hvalue =>
      rw [compile_of_range hop, compileRange, hvalue, comparison_eq]
      simp [Value.quotedItems, Value.joinedItems, Fragment.join, Fragment.append_assoc]
    | never hop hvalue =>
      rw [compile_of_membership (.inl hop), compileMembership, hvalue, hop]
      rfl
    | always hop hvalue =>
      rw [compile_of_membership (.inr hop), compileMembership, hvalue, hop]
      rfl
    | @rows sub hop hvalue =>
      rw [compile_of_membership hop, compileMembership, hvalue]
      exact congrArg Except.ok (p.comparison_append_parenthesized sub)
    | members hop hne hsub =>
      rw [compile_of_membership hop, compileMembership, ← joined_value]
      split
      · next hvalue => exact absurd hvalue hne
      · next sub hvalue => exact absurd hvalue (hsub sub)
      · rw [comparison_append_parenthesized]
    | nullTest hop => exact compile_of_nullTest hop
    | comparison hop hne =>
      rw [compile_of_comparison hop, compileComparison, ← joined_value, comparison_eq]
      exact if_neg fun hempty => hne (eq_of_isEmpty hempty)
  error := by
    rintro _ ⟨_, rfl, hbad⟩
    cases hbad with
    | range hop hvalue =>
      rw [compile_of_range hop, compileRange]
      split
      · next low high heq => exact absurd heq (hvalue low high)
      · rfl
    | comparison hop hvalue =>
      rw [compile_of_comparison hop, compileComparison, hvalue]
      rfl
  total := by
    by_cases hrange : p.operator.IsRange
    · by_cases hvalue : ∃ low high, p.value = .list [low, high]
      · obtain ⟨low, high, hvalue⟩ := hvalue
        exact .inl ⟨_, .range hrange hvalue⟩
      · exact .inr ⟨_, _, rfl, .range hrange fun low high h => hvalue ⟨low, high, h⟩⟩
    by_cases hnull : p.operator.IsNullTest
    · exact .inl ⟨_, .nullTest hnull⟩
    by_cases hempty : p.value = .list []
    · by_cases hmembership : p.operator.IsMembership
      · rcases hmembership with hop | hop
        · exact .inl ⟨_, .never hop hempty⟩
        · exact .inl ⟨_, .always hop hempty⟩
      · exact .inr ⟨_, _, rfl, .comparison ⟨hrange, hmembership, hnull⟩ hempty⟩
    · by_cases hmembership : p.operator.IsMembership
      · by_cases hsub : ∃ sub, p.value = .statement sub
        · obtain ⟨sub, hsub⟩ := hsub
          exact .inl ⟨_, .rows hmembership hsub⟩
        · exact .inl ⟨_, .members hmembership hempty fun sub h => hsub ⟨sub, h⟩⟩
      · exact .inl ⟨_, .comparison ⟨hrange, hmembership, hnull⟩ hempty⟩

/-! ### Clauses -/

theorem compileNext_eq_ok_iff {a : Fragment} :
    p.compileNext quote = .ok a ↔
      ∃ connector body, p.Connects connector ∧ p.Writes quote body ∧
        a = raw (" " ++ connector.text ++ " ") ++ body := by
  constructor
  · intro h
    obtain ⟨connector, hconnector, h⟩ := exists_of_bind_eq_ok h
    obtain ⟨body, hbody, h⟩ := exists_of_bind_eq_ok h
    cases h
    exact ⟨connector, body, p.answers_resolvedConnector.eq_ok_iff.mp hconnector,
      (p.answers_compile quote).eq_ok_iff.mp hbody, by rw [raw_blank_word]⟩
  · rintro ⟨connector, body, hconnector, hbody, rfl⟩
    rw [compileNext, p.answers_resolvedConnector.ok _ hconnector,
      (p.answers_compile quote).ok _ hbody, ← raw_blank_word]
    rfl

/-- Behind the first place the connector is read before the value. -/
theorem compileNext_eq_error_iff {place : Nat} (hplace : place ≠ 0) {e : SqlError} :
    p.compileNext quote = .error e ↔
      ∃ fault, e = .invalidArgument fault ∧ p.FaultyAt place fault := by
  rw [compileNext, bind_eq_error_iff, p.answers_resolvedConnector.eq_error_iff]
  constructor
  · rintro (⟨fault, rfl, hbad⟩ | ⟨connector, hconnector, h⟩)
    · exact ⟨fault, rfl, .inl ⟨hplace, hbad⟩⟩
    · rcases bind_eq_error_iff.mp h with h | ⟨body, -, ⟨⟩⟩
      obtain ⟨fault, rfl, hbad⟩ := (p.answers_compile quote).eq_error_iff.mp h
      refine ⟨fault, rfl, .inr ⟨.inr fun f hf => ?_, hbad⟩⟩
      cases hconnector.symm.trans (p.answers_resolvedConnector.error _ ⟨f, rfl, hf⟩)
  · rintro ⟨fault, rfl, ⟨-, hbad⟩ | ⟨hsound, hbad⟩⟩
    · exact .inl ⟨fault, rfl, hbad⟩
    · have hsound := hsound.resolve_left hplace
      rcases p.answers_resolvedConnector.total with ⟨connector, hconnector⟩ | ⟨_, f, -, hf⟩
      · refine .inr ⟨connector, p.answers_resolvedConnector.ok _ hconnector, ?_⟩
        exact bind_eq_error_iff.mpr
          (.inl ((p.answers_compile quote).error _ ⟨fault, rfl, hbad⟩))
      · exact absurd hf (hsound f)

theorem compile_eq_error_iff {e : SqlError} :
    p.compile quote = .error e ↔ ∃ fault, e = .invalidArgument fault ∧ p.FaultyAt 0 fault := by
  rw [(p.answers_compile quote).eq_error_iff]
  simp [FaultyAt]

theorem mapM_compileNext_eq_ok_iff {ps : List Predicate} {a : Fragment} :
    (∃ later, ps.mapM (fun q => q.compileNext quote) = .ok later ∧ .join "" later = a) ↔
      WritesLater quote ps a := by
  induction ps generalizing a with
  | nil =>
    constructor
    · rintro ⟨_, ⟨⟩, rfl⟩
      exact .nil
    · rintro ⟨⟩
      exact ⟨[], rfl, rfl⟩
  | cons p ps ih =>
    rw [List.mapM_cons]
    constructor
    · rintro ⟨_, h, rfl⟩
      obtain ⟨first, hfirst, h⟩ := exists_of_bind_eq_ok h
      obtain ⟨later, hlater, h⟩ := exists_of_bind_eq_ok h
      cases h
      obtain ⟨connector, body, hconnector, hbody, rfl⟩ := compileNext_eq_ok_iff.mp hfirst
      rw [Fragment.join_empty_cons]
      exact .cons hconnector hbody (ih.mp ⟨later, hlater, rfl⟩)
    · rintro (_ | ⟨hconnector, hbody, hrest⟩)
      obtain ⟨later, hlater, rfl⟩ := ih.mpr hrest
      have hfirst := compileNext_eq_ok_iff.mpr ⟨_, _, hconnector, hbody, rfl⟩
      refine ⟨_ :: later, ?_, Fragment.join_empty_cons _ later⟩
      rw [hfirst, hlater]
      rfl

end Predicate

/-- The predicate at some place is faulty, and none before it is. -/
def FirstFault (ps : List Predicate) (fault : ArgumentFault) : Prop :=
  ∃ (place : Nat) (p : Predicate), ps[place]? = some p ∧ p.FaultyAt place fault ∧
    ∀ before < place, ∀ q : Predicate, ps[before]? = some q → ∀ f, ¬q.FaultyAt before f

/-- No predicate is faulty at its place. -/
def Sound (ps : List Predicate) : Prop :=
  ∀ (place : Nat) (p : Predicate), ps[place]? = some p → ∀ fault, ¬p.FaultyAt place fault

/-- If any predicate is faulty, then one of them is the first. -/
theorem sound_iff_not_firstFault {ps : List Predicate} :
    Sound ps ↔ ∀ fault, ¬FirstFault ps fault := by
  constructor
  · rintro h fault ⟨place, p, hp, hfault, -⟩
    exact h place p hp fault hfault
  · intro h place
    induction place using Nat.strongRecOn with
    | ind place ih =>
      intro p hp fault hfault
      exact h fault ⟨place, p, hp, hfault, ih⟩

/-- A computation succeeds if there is no fault for which it would fail. -/
theorem exists_ok_iff_no_fault {x : Except SqlError Fragment} {Fault : ArgumentFault → Prop}
    (h : ∀ e, x = .error e ↔ ∃ fault, e = .invalidArgument fault ∧ Fault fault) :
    (∃ a, x = .ok a) ↔ ∀ fault, ¬Fault fault := by
  constructor
  · rintro ⟨a, rfl⟩ fault hfault
    cases (h _).mpr ⟨fault, rfl, hfault⟩
  · intro hsound
    cases x with
    | ok a => exact ⟨a, rfl⟩
    | error e =>
      obtain ⟨fault, -, hfault⟩ := (h e).mp rfl
      exact absurd hfault (hsound fault)

variable {keyword : ClauseKeyword} {quote : Bool}

theorem compileClause_eq_error_iff {ps : List Predicate} {e : SqlError} :
    compileClause keyword quote ps = .error e ↔
      ∃ fault, e = .invalidArgument fault ∧ FirstFault ps fault := by
  cases ps with
  | nil =>
    constructor
    · rintro ⟨⟩
    · rintro ⟨fault, -, place, p, ⟨⟩, -⟩
  | cons p ps =>
    have hfirst : (∃ a, p.compile quote = .ok a) ↔ ∀ f, ¬p.FaultyAt 0 f :=
      exists_ok_iff_no_fault fun _ => Predicate.compile_eq_error_iff
    have hnext (i : Nat) (q : Predicate) :
        (∃ a, q.compileNext quote = .ok a) ↔ ∀ f, ¬q.FaultyAt (i + 1) f :=
      exists_ok_iff_no_fault fun _ => Predicate.compileNext_eq_error_iff i.succ_ne_zero
    rw [compileClause, bind_eq_error_iff, Predicate.compile_eq_error_iff]
    constructor
    · rintro (⟨fault, rfl, hfault⟩ | ⟨first, hok, h⟩)
      · exact ⟨fault, rfl, 0, p, rfl, hfault, fun i hi => absurd hi i.not_lt_zero⟩
      · rcases bind_eq_error_iff.mp h with h | ⟨later, -, ⟨⟩⟩
        obtain ⟨i, q, hq, hfail, hbefore⟩ := (mapM_eq_error_iff ps).mp h
        obtain ⟨fault, rfl, hfault⟩ :=
          (Predicate.compileNext_eq_error_iff i.succ_ne_zero).mp hfail
        refine ⟨fault, rfl, i + 1, q, hq, hfault, fun j hj r hr => ?_⟩
        cases j with
        | zero =>
          cases hr
          exact hfirst.mp ⟨first, hok⟩
        | succ j => exact (hnext j r).mp (hbefore j (Nat.lt_of_succ_lt_succ hj) r hr)
    · rintro ⟨fault, rfl, i, q, hq, hfault, hbefore⟩
      cases i with
      | zero =>
        cases hq
        exact .inl ⟨fault, rfl, hfault⟩
      | succ i =>
        obtain ⟨first, hok⟩ := hfirst.mpr (hbefore 0 i.succ_pos p rfl)
        refine .inr ⟨first, hok, bind_eq_error_iff.mpr (.inl ((mapM_eq_error_iff ps).mpr ?_))⟩
        refine ⟨i, q, hq,
          (Predicate.compileNext_eq_error_iff i.succ_ne_zero).mpr ⟨fault, rfl, hfault⟩, ?_⟩
        exact fun j hj r hr => (hnext j r).mpr (hbefore (j + 1) (Nat.succ_lt_succ hj) r hr)

theorem compileClause_eq_ok_iff {ps : List Predicate} {a : Fragment} :
    compileClause keyword quote ps = .ok a ↔ WritesClause keyword quote ps a := by
  cases ps with
  | nil =>
    constructor
    · rintro ⟨⟩
      exact .nil
    · rintro ⟨⟩
      rfl
  | cons p ps =>
    constructor
    · intro h
      obtain ⟨first, hfirst, h⟩ := exists_of_bind_eq_ok h
      obtain ⟨later, hlater, h⟩ := exists_of_bind_eq_ok h
      cases h
      rw [Predicate.raw_blank_word]
      exact .cons ((p.answers_compile quote).eq_ok_iff.mp hfirst)
        (Predicate.mapM_compileNext_eq_ok_iff.mp ⟨later, hlater, rfl⟩)
    · rintro (_ | ⟨hfirst, hrest⟩)
      obtain ⟨later, hlater, rfl⟩ := Predicate.mapM_compileNext_eq_ok_iff.mpr hrest
      rw [compileClause, (p.answers_compile quote).ok _ hfirst, hlater,
        ← Predicate.raw_blank_word]
      rfl

/-- A list of predicates is refused if one of them is faulty at its place, and the first such
decides the error. Otherwise exactly that is written which the grammar says. The list is emptied if
it is compiled and taken, and kept if it is refused. -/
theorem clause_compiled_exactly (keyword : ClauseKeyword) (quote : Bool) (ps : List Predicate) :
    (∀ e, compileClause keyword quote ps = .error e ↔
      ∃ fault, e = .invalidArgument fault ∧ FirstFault ps fault) ∧
      ((∃ a, compileClause keyword quote ps = .ok a) ↔ Sound ps) ∧
      (∀ a, compileClause keyword quote ps = .ok a ↔ WritesClause keyword quote ps a) ∧
      (takeClause keyword quote ps).1 = compileClause keyword quote ps ∧
      (Sound ps → (takeClause keyword quote ps).2 = []) ∧
      (¬Sound ps → (takeClause keyword quote ps).2 = ps) := by
  have hsound : (∃ a, compileClause keyword quote ps = .ok a) ↔ Sound ps := by
    rw [sound_iff_not_firstFault]
    exact exists_ok_iff_no_fault fun _ => compileClause_eq_error_iff
  refine ⟨fun _ => compileClause_eq_error_iff, hsound, fun _ => compileClause_eq_ok_iff, ?_⟩
  rw [takeClause, ← hsound]
  cases compileClause keyword quote ps with
  | ok a => simp
  | error e => simp

/-- The connector of the first predicate is passed over; of the second, both the connector and the
value are bad. -/
example :
    compileClause .rows true [(Predicate.ofValue "a" .placeholder).withConnector "XOR",
        (Predicate.ofValue "b" .missing).withConnector "XOR"] =
      .error (.invalidArgument (.connector "XOR")) := by decide +kernel

end BoundSql
