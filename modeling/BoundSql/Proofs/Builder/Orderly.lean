import BoundSql.Proofs.Builder.Reached
import BoundSql.Proofs.Statement.Orderly

/-!
# Builders hold orderly statements

A builder that quotes, reached by calls that supply what a text rule admits, holds an appendable
statement (`Reached.keeps`). The invariant takes in the pending predicates, since the statement that
takes them comes later.
-/

namespace BoundSql

open Fragment (raw Orderly Appendable)

variable {r : TextRule}

/-- A builder that quotes, with an appendable statement and pending predicates that keep the
rule. -/
structure Builder.Keeps (r : TextRule) (b : Builder) : Prop where
  quoting : b.config.autoQuoteValues = true
  sql : Appendable r b.sql
  rows : ∀ p ∈ b.pendingWhere, p.Keeps r
  groups : ∀ p ∈ b.pendingHaving, p.Keeps r

/-- A call that leaves quoting on, with texts that are accepted and statements that are
appendable; raw text has to be appendable, too. -/
structure Call.Keeps (r : TextRule) (c : Call) : Prop where
  quoting : c ≠ .autoQuoteValues false
  texts : ∀ s ∈ c.texts, r.Accepts s
  statements : ∀ f ∈ c.statements, Appendable r f
  head : ∀ s, c = .appendRaw s → r.AcceptsHead s

namespace Builder

variable {b : Builder}

theorem Keeps.write {type : StatementType} {statement : Fragment} (h : b.Keeps r)
    (hs : Appendable r statement) : (b.write type statement).Keeps r := by
  refine ⟨h.quoting, ?_, h.rows, h.groups⟩
  show Appendable r (if b.isContinuing then b.sql ++ statement else statement)
  split
  · exact h.sql.append hs
  · exact hs

theorem Keeps.appendable_selectTail {keywords : KeywordClauses} {tail : Fragment} (h : b.Keeps r)
    (hk : ∀ s ∈ keywords.texts, r.Accepts s) (ht : b.selectTail keywords = .ok tail) :
    Appendable r tail := by
  unfold selectTail at ht
  rw [h.quoting] at ht
  obtain ⟨rows, hrows, ht⟩ := exists_of_bind_eq_ok ht
  obtain ⟨groups, hgroups, ht⟩ := exists_of_bind_eq_ok ht
  cases ht
  have hclause (keyword : Keyword) : Appendable r (raw (keywords.clause keyword)) :=
    KeywordClauses.appendable_clause keyword fun s hs => hk s (KeywordClauses.mem_texts hs)
  have hfront : Appendable r (rows ++ raw (keywords.clause .groupBy) ++ groups) :=
    ((appendable_compileClause h.rows hrows).append (hclause _)).append
      (appendable_compileClause h.groups hgroups)
  exact ((hfront.append (hclause _)).append (hclause _)).append (hclause _)

theorem Keeps.appendable_changeTail {limit : Option Nat} {tail : Fragment} (h : b.Keeps r)
    (ht : b.changeTail limit = .ok tail) : Appendable r tail := by
  unfold changeTail at ht
  rw [h.quoting] at ht
  obtain ⟨rows, hrows, ht⟩ := exists_of_bind_eq_ok ht
  cases ht
  exact (appendable_compileClause h.rows hrows).append (KeywordClauses.appendable_limit limit)

theorem Keeps.select {distinct : Bool} {tables : Tables} {columns : Columns}
    {keywords : KeywordClauses} (h : b.Keeps r)
    (hc : (Call.select distinct tables columns keywords).Keeps r) :
    (b.select distinct tables columns keywords).builder.Keeps r := by
  obtain ⟨htexts, hkeywords⟩ := List.forall_mem_append.mp hc.texts
  obtain ⟨htables, hcolumns⟩ := List.forall_mem_append.mp htexts
  unfold Builder.select
  cases ht : b.selectTail keywords with
  | error e => exact h
  | ok tail =>
    have hsource : Orderly r (compileTables tables).value :=
      orderly_compileTables (TextRule.Admits.of_flatMap htables hc.statements)
    have hnames : r.Accepts (if columns.isEmpty then "*" else columns.text) := by
      split
      · exact TextRule.accepts_own (by decide)
      · exact Columns.accepts_text hcolumns
    have hdistinct : r.Accepts (if distinct then "DISTINCT " else "") := by
      split <;> exact TextRule.accepts_own (by decide)
    have hstatement : Orderly r ((compileTables tables).value ++ tail) :=
      hsource.append (h.appendable_selectTail hkeywords ht)
    refine Keeps.write ⟨h.quoting, h.sql, List.forall_mem_nil _, List.forall_mem_nil _⟩ ?_
    simp only [Fragment.append_assoc]
    exact (((hstatement.raw_append (TextRule.accepts_own (by decide))).raw_append
      hnames).raw_append hdistinct).own_append (by decide)

theorem Keeps.insert {ignore : Bool} {table : String} {values : Value} {columns : Columns}
    (h : b.Keeps r) (hc : (Call.insert ignore table values columns).Keeps r) :
    (b.insert ignore table values columns).builder.Keeps r := by
  obtain ⟨htable, hcolumns⟩ := List.forall_mem_cons.mp hc.texts
  have hsource : Orderly r (insertSource b.config.autoQuoteValues values) := by
    rw [h.quoting]
    unfold insertSource
    split
    · next sub =>
      exact (hc.statements sub List.mem_cons_self).toOrderly.raw_append
        (TextRule.accepts_own (by decide))
    · exact (values.orderly_joined hc.statements).parenthesized.toOrderly.raw_append
        (TextRule.accepts_own (by decide))
  have hnames : r.Accepts (if columns.isEmpty then "" else "(" ++ columns.text ++ ")") := by
    split
    · exact TextRule.accepts_empty
    · exact ((TextRule.accepts_own (by decide)).append (Columns.accepts_text hcolumns)).append
        (TextRule.accepts_own (by decide))
  have hignore : r.Accepts (if ignore then "IGNORE " else "") := by
    split <;> exact TextRule.accepts_own (by decide)
  refine h.write ?_
  simp only [Fragment.append_assoc]
  exact ((((hsource.raw_append hnames).raw_append htable).raw_append
    (TextRule.accepts_own (by decide))).raw_append hignore).own_append (by decide)

theorem Keeps.update {tables : Tables} {assignments : SetClause} {limit : Option Nat}
    (h : b.Keeps r) (hc : (Call.update tables assignments limit).Keeps r) :
    (b.update tables assignments limit).builder.Keeps r := by
  obtain ⟨htables, hset⟩ := List.forall_mem_append.mp hc.texts
  obtain ⟨hsubs, hsetSubs⟩ := List.forall_mem_append.mp hc.statements
  unfold Builder.update
  cases ht : b.changeTail limit with
  | error e => exact h
  | ok tail =>
    have htarget : Orderly r (compileTables tables).value :=
      orderly_compileTables (TextRule.Admits.of_flatMap htables hsubs)
    have hassignments : Orderly r (assignments.compile true) :=
      SetClause.Keeps.orderly_compile ⟨hset, hsetSubs⟩
    have hrest : Orderly r (assignments.compile true ++ tail) :=
      hassignments.append (h.appendable_changeTail ht)
    refine Keeps.write ⟨h.quoting, h.sql, List.forall_mem_nil _, h.groups⟩ ?_
    simp only [h.quoting, Fragment.append_assoc]
    exact (htarget.append (hrest.own_append (by decide))).own_append (by decide)

theorem Keeps.delete {table : String} {limit : Option Nat} (h : b.Keeps r)
    (hc : (Call.delete table limit).Keeps r) : (b.delete table limit).builder.Keeps r := by
  unfold Builder.delete
  cases ht : b.changeTail limit with
  | error e => exact h
  | ok tail =>
    refine Keeps.write ⟨h.quoting, h.sql, List.forall_mem_nil _, h.groups⟩ ?_
    rw [Fragment.append_assoc]
    exact ((h.appendable_changeTail ht).toOrderly.raw_append
      (hc.texts table List.mem_cons_self)).own_append (by decide)

theorem Keeps.truncate {table : String} (h : b.Keeps r) (hc : (Call.truncate table).Keeps r) :
    (b.truncate table).builder.Keeps r := by
  refine Keeps.write ⟨h.quoting, h.sql, List.forall_mem_nil _, List.forall_mem_nil _⟩ ?_
  exact (Fragment.orderly_raw (hc.texts table List.mem_cons_self)).own_append (by decide)

theorem Keeps.createView {name : String} {replace : Bool} (h : b.Keeps r)
    (hc : (Call.createView name replace).Keeps r) :
    (b.createView name replace).builder.Keeps r := by
  have hreplace : r.Accepts (if replace then "OR REPLACE " else "") := by
    split <;> exact TextRule.accepts_own (by decide)
  have hname : Orderly r (raw name ++ raw " AS ") :=
    (Fragment.orderly_raw (TextRule.accepts_own (by decide))).raw_append
      (hc.texts name List.mem_cons_self)
  have hwritten : (b.write .raw (raw "CREATE " ++ raw (if replace then "OR REPLACE " else "") ++
      raw "VIEW " ++ raw name ++ raw " AS ")).Keeps r := by
    refine h.write ?_
    simp only [Fragment.append_assoc]
    exact ((hname.raw_append (TextRule.accepts_own (by decide))).raw_append hreplace).own_append
      (by decide)
  exact ⟨hwritten.quoting, hwritten.sql, hwritten.rows, hwritten.groups⟩

theorem Keeps.drop {name kind : String} (h : b.Keeps r) (hc : (Call.drop name kind).Keeps r) :
    (b.drop name kind).builder.Keeps r := by
  unfold Builder.drop
  cases DropKind.parse kind with
  | error e => exact h
  | ok kind =>
    have hkind : r.Accepts kind.text := by
      cases kind <;> exact TextRule.accepts_own (by decide)
    refine h.write ?_
    simp only [Fragment.append_assoc]
    exact (((Fragment.orderly_raw (hc.texts name List.mem_cons_self)).raw_append
      (TextRule.accepts_own (by decide))).raw_append hkind).own_append (by decide)

theorem Keeps.union {choice : UnionChoice} (h : b.Keeps r) :
    (b.union choice).builder.Keeps r := by
  unfold Builder.union
  cases choice.resolve with
  | error e => exact h
  | ok mode =>
    have hmode : Appendable r (raw mode.text) := by
      cases mode <;> exact Fragment.appendable_own (by decide)
    exact ⟨h.quoting, h.sql.append hmode, h.rows, h.groups⟩

theorem Keeps.reset (h : b.Keeps r) : b.reset.Keeps r :=
  ⟨h.quoting, Fragment.appendable_empty, List.forall_mem_nil _, List.forall_mem_nil _⟩

/-- A call that keeps the rule leaves behind a builder that keeps it. -/
theorem Keeps.call {c : Call} (h : b.Keeps r) (hc : c.Keeps r) : (b.call c).builder.Keeps r := by
  cases c with
  | autoQuoteValues enabled =>
    have henabled : enabled = true := by
      cases enabled with
      | true => rfl
      | false => exact absurd rfl hc.quoting
    exact ⟨henabled, h.sql, h.rows, h.groups⟩
  | filter predicates =>
    exact ⟨h.quoting, h.sql, TextRule.Admits.of_flatMap hc.texts hc.statements, h.groups⟩
  | having predicates =>
    exact ⟨h.quoting, h.sql, h.rows, TextRule.Admits.of_flatMap hc.texts hc.statements⟩
  | select distinct tables columns keywords => exact h.select hc
  | insert ignore table values columns => exact h.insert hc
  | update tables assignments limit => exact h.update hc
  | delete table limit => exact h.delete hc
  | truncate table => exact h.truncate hc
  | appendRaw text =>
    have htext : Appendable r (raw text) :=
      Fragment.appendable_raw (hc.texts text List.mem_cons_self) (hc.head text rfl)
    exact ⟨h.quoting, h.sql.append htext, h.rows, h.groups⟩
  | append statement =>
    exact ⟨h.quoting, h.sql.append (hc.statements statement List.mem_cons_self), h.rows, h.groups⟩
  | createView name replace => exact h.createView hc
  | drop name kind =>
    rw [Builder.call]
    exact h.drop hc
  | union choice =>
    rw [Builder.call]
    exact h.union
  | reset => exact h.reset

theorem Keeps.handedOver (h : b.Keeps r) (style : PlaceholderStyle) :
    (b.handedOver style).Keeps r := by
  unfold Builder.handedOver
  cases b.statementFor style with
  | error e => exact h
  | ok statement =>
    have hsent : Builder.Keeps r { b with lastSql := some statement.sql } :=
      ⟨h.quoting, h.sql, h.rows, h.groups⟩
    exact hsent.reset

end Builder

/-- If new builders quote, and admitted calls keep the rule as long as the statements that they
embed do, then every builder that is reached keeps it. -/
theorem Reached.keeps {starts : Config → Prop} {admits : Call → Prop} {b : Builder}
    (hstarts : ∀ config, starts config → config.autoQuoteValues = true)
    (hadmits : ∀ c, admits c → (∀ f ∈ c.statements, Appendable r f) → c.Keeps r)
    (h : Reached starts admits b) : b.Keeps r := by
  refine h.invariant (fun b hb => hb.sql) (fun config hc => ?_) (fun b c hb hc hf => ?_)
    fun b style hb => hb.handedOver style
  · exact ⟨hstarts config hc, Fragment.appendable_empty, List.forall_mem_nil _,
      List.forall_mem_nil _⟩
  · exact hb.call (hadmits c hc hf)

end BoundSql
