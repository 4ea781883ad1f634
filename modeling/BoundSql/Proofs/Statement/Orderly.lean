import BoundSql.Proofs.Builder.Supplied
import BoundSql.Proofs.Except
import BoundSql.Proofs.Fragment.Orderly
import BoundSql.Proofs.Number.Digits
import BoundSql.Proofs.Text.Blank

/-!
# The parts of a statement are orderly

If the texts that a descriptor supplies keep a text rule, and so do the statements that it embeds,
then so does what is compiled from it with quoting on. Clauses and the entries behind the first one
begin with a blank or a comma and are therefore appendable.
-/

namespace BoundSql

open Fragment (raw Orderly Appendable)

variable {r : TextRule}

/-- What a descriptor supplies keeps the rule: its texts are accepted, and the statements embedded
in it are appendable. -/
structure TextRule.Admits (r : TextRule) (texts : List String) (statements : List Fragment) :
    Prop where
  texts : ∀ s ∈ texts, r.Accepts s
  statements : ∀ f ∈ statements, Appendable r f

/-- Each descriptor of a list is admitted if all that the list supplies is. -/
theorem TextRule.Admits.of_flatMap {α : Type} {as : List α} {texts : α → List String}
    {statements : α → List Fragment} (ht : ∀ s ∈ as.flatMap texts, r.Accepts s)
    (hf : ∀ f ∈ as.flatMap statements, Appendable r f) :
    ∀ a ∈ as, r.Admits (texts a) (statements a) := by
  intro a ha
  refine ⟨fun s hs => ht s ?_, fun f hs => hf f ?_⟩
  · exact List.mem_flatMap_of_mem ha hs
  · exact List.mem_flatMap_of_mem ha hs

/-! ### Values -/

theorem Scalar.orderly_quoted (s : Scalar) : Orderly r (s.quoted true) := by
  unfold quoted
  split
  · split
    · exact Fragment.orderly_placeholder
    · exact Fragment.orderly_bind s
  · contradiction

namespace Value

mutual

theorem orderly_joined : ∀ v : Value, (∀ f ∈ v.statements, Appendable r f) →
    Orderly r (v.joined true)
  | .scalar s, _ => s.orderly_quoted
  | .placeholder, _ => Fragment.orderly_placeholder
  | .list items, h => Fragment.orderly_join (by decide) (orderly_joinedItems items h)
  | .statement sub, h => (h sub List.mem_cons_self).toOrderly.parenthesized.toOrderly

theorem orderly_joinedItems : ∀ vs : List Value, (∀ f ∈ listStatements vs, Appendable r f) →
    ∀ a ∈ joinedItems true vs, Orderly r a
  | [], _, a, ha => by simp [joinedItems] at ha
  | v :: vs, h, a, ha => by
    rw [joinedItems, List.mem_cons] at ha
    rcases ha with rfl | ha
    · exact orderly_joined v fun f hf => h f (List.mem_append_left _ hf)
    · exact orderly_joinedItems vs (fun f hf => h f (List.mem_append_right _ hf)) a ha

end

theorem orderly_quotedItems (v : Value) (h : ∀ f ∈ v.statements, Appendable r f) :
    ∀ a ∈ v.quotedItems true, Orderly r a := by
  cases v with
  | list items => exact orderly_joinedItems items h
  | scalar s => simpa [quotedItems] using orderly_joined (.scalar s) h
  | placeholder => simpa [quotedItems] using orderly_joined .placeholder h
  | statement sub => simpa [quotedItems] using orderly_joined (.statement sub) h

end Value

/-! ### Clauses -/

/-- The operator's text is accepted, if it is not one of the known ones. -/
theorem Operator.accepts_text {op : Operator} (h : ∀ s ∈ op.texts, r.Accepts s) :
    r.Accepts op.text := by
  cases op with
  | other text => exact h text List.mem_cons_self
  | _ => exact TextRule.accepts_own (by decide)

/-- What a predicate supplies keeps the rule. -/
abbrev Predicate.Keeps (r : TextRule) (p : Predicate) : Prop := r.Admits p.texts p.statements

namespace Predicate

variable {p : Predicate}

theorem Keeps.accepts_expression (h : p.Keeps r) : r.Accepts p.expression :=
  h.texts p.expression List.mem_cons_self

theorem Keeps.accepts_operator (h : p.Keeps r) : r.Accepts p.operator.text :=
  Operator.accepts_text fun s hs => h.texts s (List.mem_cons_of_mem _ hs)

/-- Anything orderly may stand behind the expression and the operator. -/
theorem Keeps.orderly_comparison {a : Fragment} (h : p.Keeps r) (ha : Orderly r a) :
    Orderly r (p.comparison ++ a) := by
  have hblank : r.Accepts " " := TextRule.accepts_own (by decide)
  simp only [comparison, Fragment.append_assoc]
  exact (((ha.raw_append hblank).raw_append h.accepts_operator).raw_append hblank).raw_append
    h.accepts_expression

theorem Keeps.orderly_compileRange {a : Fragment} (h : p.Keeps r)
    (ha : p.compileRange true = .ok a) : Orderly r a := by
  unfold compileRange at ha
  split at ha
  · cases ha
    exact h.orderly_comparison
      (Fragment.orderly_join (by decide) (p.value.orderly_quotedItems h.statements))
  · cases ha

theorem Keeps.orderly_compileMembership {always : String} (h : p.Keeps r)
    (halways : r.Accepts always) : Orderly r (p.compileMembership true always) := by
  unfold compileMembership
  split
  · exact Fragment.orderly_raw halways
  · next sub hv =>
    have hsub : Appendable r sub :=
      h.statements sub (by simp [Predicate.statements, hv, Value.statements])
    exact h.orderly_comparison hsub.toOrderly.parenthesized.toOrderly
  · exact h.orderly_comparison (p.value.orderly_joined h.statements).parenthesized.toOrderly

theorem Keeps.orderly_compileComparison {a : Fragment} (h : p.Keeps r)
    (ha : p.compileComparison true = .ok a) : Orderly r a := by
  unfold compileComparison at ha
  split at ha
  · cases ha
  · cases ha
    exact h.orderly_comparison (p.value.orderly_joined h.statements)

theorem Keeps.orderly_compile {a : Fragment} (h : p.Keeps r) (ha : p.compile true = .ok a) :
    Orderly r a := by
  unfold compile at ha
  split at ha
  · exact h.orderly_compileRange ha
  · exact h.orderly_compileRange ha
  · cases ha
    exact h.orderly_compileMembership (TextRule.accepts_own (by decide))
  · cases ha
    exact h.orderly_compileMembership (TextRule.accepts_own (by decide))
  · cases ha
    rw [Fragment.append_assoc]
    exact ((Fragment.orderly_raw h.accepts_operator).raw_append
      (TextRule.accepts_own (by decide))).raw_append h.accepts_expression
  · cases ha
    rw [Fragment.append_assoc]
    exact ((Fragment.orderly_raw h.accepts_operator).raw_append
      (TextRule.accepts_own (by decide))).raw_append h.accepts_expression
  · exact h.orderly_compileComparison ha

/-- A predicate behind another one begins with a blank. -/
theorem Keeps.appendable_compileNext {a : Fragment} (h : p.Keeps r)
    (ha : p.compileNext true = .ok a) : Appendable r a := by
  obtain ⟨connector, -, ha⟩ := exists_of_bind_eq_ok ha
  obtain ⟨body, hbody, ha⟩ := exists_of_bind_eq_ok ha
  cases ha
  have hconnector : r.Accepts connector.text := by
    cases connector <;> exact TextRule.accepts_own (by decide)
  simp only [Fragment.append_assoc]
  exact (((h.orderly_compile hbody).raw_append (TextRule.accepts_own (by decide))).raw_append
    hconnector).own_append (by decide)

end Predicate

/-- A clause begins with a blank, if there is a clause at all. -/
theorem appendable_compileClause {keyword : ClauseKeyword} {ps : List Predicate} {a : Fragment}
    (h : ∀ p ∈ ps, p.Keeps r) (ha : compileClause keyword true ps = .ok a) : Appendable r a := by
  cases ps with
  | nil =>
    cases ha
    exact Fragment.appendable_empty
  | cons p ps =>
    obtain ⟨first, hfirst, ha⟩ := exists_of_bind_eq_ok ha
    obtain ⟨later, hlater, ha⟩ := exists_of_bind_eq_ok ha
    cases ha
    have hnext : Appendable r (Fragment.join "" later) := by
      refine Fragment.appendable_join_empty fun a ha => ?_
      obtain ⟨q, hq, hqa⟩ := exists_mem_of_mapM_eq_ok hlater a ha
      exact (h q (List.mem_cons_of_mem p hq)).appendable_compileNext hqa
    have hkeyword : r.Accepts keyword.text := by
      cases keyword <;> exact TextRule.accepts_own (by decide)
    have hbody : Orderly r (first ++ Fragment.join "" later) :=
      ((h p List.mem_cons_self).orderly_compile hfirst).append hnext
    simp only [Fragment.append_assoc]
    exact ((hbody.raw_append (TextRule.accepts_own (by decide))).raw_append hkeyword).own_append
      (by decide)

/-! ### Tables -/

/-- What a table entry supplies keeps the rule. -/
abbrev TableRef.Keeps (r : TextRule) (t : TableRef) : Prop := r.Admits t.texts t.statements

namespace TableRef

/-- A join that takes effect has the condition that was given. -/
theorem eq_some_of_joinClause? {base : TableRef} {joinType on : Option String} {j : JoinType}
    {condition : String} (h : (joined base joinType on).joinClause? = some (j, condition)) :
    on = some condition := by
  unfold joinClause? at h
  split at h
  · next heq =>
    cases heq
    split at h
    · cases h
    · obtain ⟨j', -, hj⟩ := Option.map_eq_some_iff.mp h
      cases hj
      rfl
  · cases h

theorem Keeps.orderly_compile : ∀ {t : TableRef}, t.Keeps r → Orderly r t.compile.value
  | .plain name, h => Fragment.orderly_raw (h.texts name List.mem_cons_self)
  | .aliased name label, h => by
    have hname : r.Accepts name := h.texts name (by simp [TableRef.texts])
    have hlabel : r.Accepts label := h.texts label (by simp [TableRef.texts])
    simp only [compile, Traced.silent, Fragment.append_assoc]
    exact ((Fragment.orderly_raw hlabel).raw_append (TextRule.accepts_own (by decide))).raw_append
      hname
  | .statement sub none, h =>
    (h.statements sub List.mem_cons_self).toOrderly.parenthesized.toOrderly
  | .statement sub (some label), h => by
    have hsub : Orderly r sub := (h.statements sub List.mem_cons_self).toOrderly
    have hlabel : r.Accepts label := h.texts label List.mem_cons_self
    simp only [compile, Traced.silent, Fragment.append_assoc]
    exact hsub.parenthesized.toOrderly.append
      ((Fragment.orderly_raw hlabel).own_append (by decide))
  | .joined base joinType on, h => by
    -- with or without effect, a join supplies what its base supplies
    have hbase : Orderly r base.compile.value :=
      Keeps.orderly_compile ⟨fun s hs => h.texts s (List.mem_append_left _ hs), h.statements⟩
    unfold compile
    split
    · next j condition hj =>
      have hcondition : r.Accepts condition := by
        refine h.texts condition (List.mem_append_right _ ?_)
        simp [eq_some_of_joinClause? hj]
      have hjoin : r.Accepts j.text := by
        cases j <;> exact TextRule.accepts_own (by decide)
      simp only [Traced.map, Fragment.append_assoc]
      exact ((hbase.append ((Fragment.orderly_raw hcondition).own_append (by decide))).raw_append
        (TextRule.accepts_own (by decide))).raw_append hjoin
    · exact hbase

/-- What stands between two entries is a sign that compilation writes itself. -/
theorem isOwnLead_separator (t : TableRef) : isOwnLead t.separator = true := by
  unfold separator
  split <;> decide

end TableRef

theorem appendable_compileFollowing :
    ∀ {ts : Tables}, (∀ t ∈ ts, t.Keeps r) → Appendable r (compileFollowing ts).value
  | [], _ => Fragment.appendable_empty
  | t :: ts, h => by
    have hrest : Appendable r (compileFollowing ts).value :=
      appendable_compileFollowing fun u hu => h u (List.mem_cons_of_mem t hu)
    simp only [compileFollowing, Fragment.append_assoc]
    exact ((h t List.mem_cons_self).orderly_compile.append hrest).own_append t.isOwnLead_separator

theorem orderly_compileTables {ts : Tables} (h : ∀ t ∈ ts, t.Keeps r) :
    Orderly r (compileTables ts).value := by
  cases ts with
  | nil => exact Fragment.appendable_empty.toOrderly
  | cons t ts =>
    exact (h t List.mem_cons_self).orderly_compile.append
      (appendable_compileFollowing fun u hu => h u (List.mem_cons_of_mem t hu))

/-! ### Columns, assignments and keyword clauses -/

/-- Trimming adds no character. -/
theorem TextRule.Accepts.trim {s : String} (h : r.Accepts s) : r.Accepts (Text.trim s) := by
  intro c hc
  rw [Text.toList_trim, Text.trimChars, List.mem_reverse] at hc
  have hc' := List.mem_reverse.mp ((List.dropWhile_sublist _).subset hc)
  exact h c ((List.dropWhile_sublist _).subset hc')

theorem Columns.accepts_text {cs : Columns} (h : ∀ s ∈ cs, r.Accepts s) : r.Accepts cs.text :=
  TextRule.Accepts.intercalate (TextRule.accepts_own (by decide)) h

/-- What assignments supply keeps the rule. -/
abbrev SetClause.Keeps (r : TextRule) (s : SetClause) : Prop := r.Admits s.texts s.statements

theorem SetClause.Keeps.orderly_compile {s : SetClause} (h : s.Keeps r) :
    Orderly r (s.compile true) := by
  cases s with
  | raw text => exact Fragment.orderly_raw (h.texts text List.mem_cons_self).trim
  | pairs assignments =>
    refine Fragment.orderly_join (by decide) fun a ha => ?_
    obtain ⟨⟨column, value⟩, hmem, rfl⟩ := List.mem_map.mp ha
    have hcolumn : r.Accepts column := h.texts column (List.mem_map_of_mem hmem)
    have hvalue : Orderly r (value.joined true) :=
      value.orderly_joined fun f hf => h.statements f (List.mem_flatMap_of_mem hmem hf)
    show Orderly r (Fragment.raw column ++ Fragment.raw "=" ++ value.joined true)
    rw [Fragment.append_assoc]
    exact (hvalue.raw_append (TextRule.accepts_own (by decide))).raw_append hcolumn

/-- A keyword clause begins with a blank, if there is a clause at all. -/
theorem KeywordClauses.appendable_clause {k : KeywordClauses} (keyword : Keyword)
    (h : ∀ s ∈ k.entries keyword, r.Accepts s) : Appendable r (raw (k.clause keyword)) := by
  unfold clause clause?
  split
  · rw [Option.getD_none, Fragment.raw_empty]
    exact Fragment.appendable_empty
  · have hkeyword : r.Accepts (" " ++ keyword.text ++ " ") := by
      cases keyword <;> exact TextRule.accepts_own (by decide)
    have hhead : r.AcceptsHead (" " ++ keyword.text ++ " ") := by
      cases keyword <;> exact TextRule.acceptsHead_ownLead (by decide)
    have hlist : r.Accepts (String.intercalate ", "
        (((k.entries keyword).map Text.trim).filter (· != ""))) := by
      refine TextRule.Accepts.intercalate (TextRule.accepts_own (by decide)) fun s hs => ?_
      obtain ⟨t, ht, rfl⟩ := List.mem_map.mp (List.mem_of_mem_filter hs)
      exact (h t ht).trim
    exact Fragment.appendable_raw (hkeyword.append hlist)
      (hhead.append (by cases keyword <;> decide))

/-- The digits of a limit are accepted. -/
theorem KeywordClauses.appendable_limit (limit : Option Nat) :
    Appendable r (raw ((ofLimit limit).clause .limit)) := by
  refine appendable_clause .limit fun s hs => ?_
  obtain ⟨n, -, rfl⟩ := List.mem_map.mp hs
  refine TextRule.accepts_own (List.all_eq_true.mpr fun c hc => ?_)
  rw [Nat.repr_eq_ofList_toDigits, String.toList_ofList] at hc
  simp [isOwnChar, Number.isDigit_of_mem_toDigits hc]

end BoundSql
