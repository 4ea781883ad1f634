import BoundSql.Proofs.Builder.Supplied
import BoundSql.Proofs.Except
import BoundSql.Fragment.Lemmas

/-!
# What compilation puts together

Compilation makes fragments from single pieces by concatenation alone. So a property of the pieces
that concatenation keeps is a property of whatever is compiled, as soon as the statements that are
embedded in it have the property.
-/

namespace BoundSql.Fragment

/-- The property holds of single pieces, and concatenation keeps it. -/
structure Closed (P : Fragment → Prop) : Prop where
  raw : ∀ s, P (raw s)
  bind : ∀ v, P (bind v)
  placeholder : P placeholder
  append : ∀ {a b}, P a → P b → P (a ++ b)

namespace Closed

variable {P : Fragment → Prop} {quote : Bool} {a : Fragment}

theorem empty (h : Closed P) : P .empty := by
  rw [← raw_empty]
  exact h.raw ""

theorem parenthesized (h : Closed P) (ha : P a) : P a.parenthesized :=
  h.append (h.append (h.raw "(") ha) (h.raw ")")

theorem join (h : Closed P) {sep : String} :
    ∀ {as : List Fragment}, (∀ a ∈ as, P a) → P (Fragment.join sep as)
  | [], _ => h.empty
  | [a], ha => ha a List.mem_cons_self
  | a :: b :: as, ha => by
    have hrest : P (Fragment.join sep (b :: as)) :=
      h.join fun c hc => ha c (List.mem_cons_of_mem a hc)
    exact h.append (h.append (ha a List.mem_cons_self) (h.raw sep)) hrest

/-! ### Values -/

theorem quoted (h : Closed P) (quote : Bool) (s : Scalar) : P (s.quoted quote) := by
  unfold Scalar.quoted
  split
  · split
    · exact h.placeholder
    · exact h.bind s
  · exact h.raw s.plain

mutual

theorem joined (h : Closed P) (quote : Bool) :
    ∀ v : Value, (∀ f ∈ v.statements, P f) → P (v.joined quote)
  | .scalar s, _ => h.quoted quote s
  | .placeholder, _ => h.placeholder
  | .list items, hv => h.join (h.joinedItems quote items hv)
  | .statement sub, hv => h.parenthesized (hv sub List.mem_cons_self)

theorem joinedItems (h : Closed P) (quote : Bool) :
    ∀ vs : List Value, (∀ f ∈ Value.listStatements vs, P f) → ∀ a ∈ Value.joinedItems quote vs, P a
  | [], _, a, ha => by simp [Value.joinedItems] at ha
  | v :: vs, hvs, a, ha => by
    rw [Value.joinedItems, List.mem_cons] at ha
    rcases ha with rfl | ha
    · exact h.joined quote v fun f hf => hvs f (List.mem_append_left _ hf)
    · exact h.joinedItems quote vs (fun f hf => hvs f (List.mem_append_right _ hf)) a ha

end

theorem quotedItems (h : Closed P) (quote : Bool) (v : Value) (hv : ∀ f ∈ v.statements, P f) :
    ∀ a ∈ v.quotedItems quote, P a := by
  cases v with
  | list items => exact h.joinedItems quote items hv
  | scalar s => simpa [Value.quotedItems] using h.joined quote (.scalar s) hv
  | placeholder => simpa [Value.quotedItems] using h.joined quote .placeholder hv
  | statement sub => simpa [Value.quotedItems] using h.joined quote (.statement sub) hv

/-! ### Clauses -/

section Predicate

variable {p : Predicate}

theorem comparison (h : Closed P) (p : Predicate) : P p.comparison :=
  h.append (h.append (h.append (h.raw _) (h.raw _)) (h.raw _)) (h.raw _)

theorem range (h : Closed P) (hp : ∀ f ∈ p.statements, P f) (ha : p.compileRange quote = .ok a) :
    P a := by
  unfold Predicate.compileRange at ha
  split at ha
  · cases ha
    exact h.append (h.comparison p) (h.join (h.quotedItems quote p.value hp))
  · cases ha

theorem membership (h : Closed P) (hp : ∀ f ∈ p.statements, P f) (always : String) :
    P (p.compileMembership quote always) := by
  unfold Predicate.compileMembership
  split
  · exact h.raw always
  · next sub hvalue =>
    have hsub : P sub := hp sub (by simp [Predicate.statements, hvalue, Value.statements])
    exact h.append (h.comparison p) (h.parenthesized hsub)
  · exact h.append (h.comparison p) (h.parenthesized (h.joined quote p.value hp))

theorem comparisonWithValue (h : Closed P) (hp : ∀ f ∈ p.statements, P f)
    (ha : p.compileComparison quote = .ok a) : P a := by
  unfold Predicate.compileComparison at ha
  split at ha
  · cases ha
  · cases ha
    exact h.append (h.comparison p) (h.joined quote p.value hp)

theorem predicate (h : Closed P) (hp : ∀ f ∈ p.statements, P f) (ha : p.compile quote = .ok a) :
    P a := by
  unfold Predicate.compile at ha
  split at ha
  · exact h.range hp ha
  · exact h.range hp ha
  · cases ha
    exact h.membership hp _
  · cases ha
    exact h.membership hp _
  · cases ha
    exact h.append (h.append (h.raw _) (h.raw _)) (h.raw _)
  · cases ha
    exact h.append (h.append (h.raw _) (h.raw _)) (h.raw _)
  · exact h.comparisonWithValue hp ha

theorem nextPredicate (h : Closed P) (hp : ∀ f ∈ p.statements, P f)
    (ha : p.compileNext quote = .ok a) : P a := by
  obtain ⟨connector, -, ha⟩ := exists_of_bind_eq_ok ha
  obtain ⟨body, hbody, ha⟩ := exists_of_bind_eq_ok ha
  cases ha
  exact h.append (h.append (h.append (h.raw _) (h.raw _)) (h.raw _)) (h.predicate hp hbody)

end Predicate

theorem clause (h : Closed P) {keyword : ClauseKeyword} {ps : List Predicate}
    (hps : ∀ p ∈ ps, ∀ f ∈ p.statements, P f) (ha : compileClause keyword quote ps = .ok a) :
    P a := by
  cases ps with
  | nil =>
    cases ha
    exact h.empty
  | cons p ps =>
    obtain ⟨first, hfirst, ha⟩ := exists_of_bind_eq_ok ha
    obtain ⟨later, hlater, ha⟩ := exists_of_bind_eq_ok ha
    cases ha
    have hfront : P first := h.predicate (hps p List.mem_cons_self) hfirst
    have hrest : ∀ a ∈ later, P a := by
      intro a ha
      obtain ⟨q, hq, hqa⟩ := exists_mem_of_mapM_eq_ok hlater a ha
      exact h.nextPredicate (hps q (List.mem_cons_of_mem p hq)) hqa
    exact h.append (h.append (h.append (h.append (h.raw _) (h.raw _)) (h.raw _)) hfront)
      (h.join hrest)

/-! ### Tables and assignments -/

theorem table (h : Closed P) : ∀ t : TableRef, (∀ f ∈ t.statements, P f) → P t.compile.value
  | .plain name, _ => h.raw name
  | .aliased name label, _ => h.append (h.append (h.raw _) (h.raw _)) (h.raw _)
  | .statement sub none, ht => h.parenthesized (ht sub List.mem_cons_self)
  | .statement sub (some label), ht =>
    h.append (h.append (h.parenthesized (ht sub List.mem_cons_self)) (h.raw _)) (h.raw _)
  | .joined base joinType on, ht => by
    -- with or without effect, a join writes its base
    have hbase : P base.compile.value := h.table base ht
    unfold TableRef.compile
    split
    · exact h.append (h.append (h.append (h.append (h.raw _) (h.raw _)) hbase) (h.raw _)) (h.raw _)
    · exact hbase

theorem following (h : Closed P) :
    ∀ ts : Tables, (∀ t ∈ ts, ∀ f ∈ t.statements, P f) → P (compileFollowing ts).value
  | [], _ => h.empty
  | t :: ts, hts => by
    have hrest : P (compileFollowing ts).value :=
      h.following ts fun u hu => hts u (List.mem_cons_of_mem t hu)
    exact h.append (h.append (h.raw _) (h.table t (hts t List.mem_cons_self))) hrest

theorem tables (h : Closed P) {ts : Tables} (hts : ∀ t ∈ ts, ∀ f ∈ t.statements, P f) :
    P (compileTables ts).value := by
  cases ts with
  | nil => exact h.empty
  | cons t ts =>
    exact h.append (h.table t (hts t List.mem_cons_self))
      (h.following ts fun u hu => hts u (List.mem_cons_of_mem t hu))

theorem assignments (h : Closed P) (quote : Bool) {s : SetClause} (hs : ∀ f ∈ s.statements, P f) :
    P (s.compile quote) := by
  cases s with
  | raw text => exact h.raw _
  | pairs assignments =>
    refine h.join fun a ha => ?_
    obtain ⟨⟨column, value⟩, hmem, rfl⟩ := List.mem_map.mp ha
    have hvalue : P (value.joined quote) :=
      h.joined quote value fun f hf => hs f (List.mem_flatMap_of_mem hmem hf)
    exact h.append (h.append (h.raw column) (h.raw "=")) hvalue

end Closed

end BoundSql.Fragment
