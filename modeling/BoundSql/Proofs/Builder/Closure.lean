import BoundSql.Proofs.Builder.Reached
import BoundSql.Proofs.Statement.Closure

/-!
# What builders accumulate

A builder accumulates by concatenation what compilation puts together. A property that concatenation
keeps is therefore kept by every call whose embedded statements have it. The statements embedded in
pending predicates belong to the invariant, since they are written by a later call.
-/

namespace BoundSql

open Fragment (raw)

/-- The accumulated statement has the property, and so have the statements embedded in what
waits. -/
structure Builder.Has (P : Fragment → Prop) (b : Builder) : Prop where
  sql : P b.sql
  rows : ∀ p ∈ b.pendingWhere, ∀ f ∈ p.statements, P f
  groups : ∀ p ∈ b.pendingHaving, ∀ f ∈ p.statements, P f

namespace Builder.Has

variable {P : Fragment → Prop} {b : Builder}

theorem write (hP : Fragment.Closed P) (h : b.Has P) {type : StatementType} {statement : Fragment}
    (hs : P statement) : (b.write type statement).Has P := by
  refine ⟨?_, h.rows, h.groups⟩
  show P (if b.isContinuing then b.sql ++ statement else statement)
  split
  · exact hP.append h.sql hs
  · exact hs

/-- Nothing that waits embeds a statement. -/
theorem cleared (h : b.Has P) : Builder.Has P { b with pendingWhere := [], pendingHaving := [] } :=
  ⟨h.sql, List.forall_mem_nil _, List.forall_mem_nil _⟩

theorem clearedRows (h : b.Has P) : Builder.Has P { b with pendingWhere := [] } :=
  ⟨h.sql, List.forall_mem_nil _, h.groups⟩

theorem selectTail (hP : Fragment.Closed P) (h : b.Has P) {keywords : KeywordClauses}
    {tail : Fragment} (ht : b.selectTail keywords = .ok tail) : P tail := by
  obtain ⟨rows, hrows, ht⟩ := exists_of_bind_eq_ok ht
  obtain ⟨groups, hgroups, ht⟩ := exists_of_bind_eq_ok ht
  cases ht
  have hfront : P (rows ++ raw (keywords.clause .groupBy) ++ groups) :=
    hP.append (hP.append (hP.clause h.rows hrows) (hP.raw _)) (hP.clause h.groups hgroups)
  exact hP.append (hP.append (hP.append hfront (hP.raw _)) (hP.raw _)) (hP.raw _)

theorem changeTail (hP : Fragment.Closed P) (h : b.Has P) {limit : Option Nat} {tail : Fragment}
    (ht : b.changeTail limit = .ok tail) : P tail := by
  obtain ⟨rows, hrows, ht⟩ := exists_of_bind_eq_ok ht
  cases ht
  exact hP.append (hP.clause h.rows hrows) (hP.raw _)

theorem select (hP : Fragment.Closed P) (h : b.Has P) (distinct : Bool) {tables : Tables}
    (htables : ∀ f ∈ tables.flatMap TableRef.statements, P f) (columns : Columns)
    (keywords : KeywordClauses) : (b.select distinct tables columns keywords).builder.Has P := by
  unfold Builder.select
  cases ht : b.selectTail keywords with
  | error e => exact h
  | ok tail =>
    have hsource : P (compileTables tables).value :=
      hP.tables fun t ht f hf => htables f (List.mem_flatMap_of_mem ht hf)
    have hfront : P (raw "SELECT " ++ raw (if distinct then "DISTINCT " else "") ++
        raw (if columns.isEmpty then "*" else columns.text) ++ raw " FROM ") :=
      hP.append (hP.append (hP.append (hP.raw _) (hP.raw _)) (hP.raw _)) (hP.raw _)
    exact h.cleared.write hP (hP.append (hP.append hfront hsource) (h.selectTail hP ht))

theorem insert (hP : Fragment.Closed P) (h : b.Has P) (ignore : Bool) (table : String)
    {values : Value} (hvalues : ∀ f ∈ values.statements, P f) (columns : Columns) :
    (b.insert ignore table values columns).builder.Has P := by
  have hsource : P (insertSource b.config.autoQuoteValues values) := by
    unfold insertSource
    split
    · next sub => exact hP.append (hP.raw _) (hvalues sub List.mem_cons_self)
    · exact hP.append (hP.raw _) (hP.parenthesized (hP.joined _ values hvalues))
  refine h.write hP ?_
  exact hP.append (hP.append (hP.append (hP.append (hP.append (hP.raw _) (hP.raw _)) (hP.raw _))
    (hP.raw _)) (hP.raw _)) hsource

theorem update (hP : Fragment.Closed P) (h : b.Has P) {tables : Tables}
    (htables : ∀ f ∈ tables.flatMap TableRef.statements, P f) {assignments : SetClause}
    (hset : ∀ f ∈ assignments.statements, P f) (limit : Option Nat) :
    (b.update tables assignments limit).builder.Has P := by
  unfold Builder.update
  cases ht : b.changeTail limit with
  | error e => exact h
  | ok tail =>
    have htarget : P (compileTables tables).value :=
      hP.tables fun t ht f hf => htables f (List.mem_flatMap_of_mem ht hf)
    have hfront : P (raw "UPDATE " ++ (compileTables tables).value ++ raw " SET ") :=
      hP.append (hP.append (hP.raw _) htarget) (hP.raw _)
    exact h.clearedRows.write hP
      (hP.append (hP.append hfront (hP.assignments _ hset)) (h.changeTail hP ht))

theorem delete (hP : Fragment.Closed P) (h : b.Has P) (table : String) (limit : Option Nat) :
    (b.delete table limit).builder.Has P := by
  unfold Builder.delete
  cases ht : b.changeTail limit with
  | error e => exact h
  | ok tail =>
    exact h.clearedRows.write hP
      (hP.append (hP.append (hP.raw _) (hP.raw _)) (h.changeTail hP ht))

theorem drop (hP : Fragment.Closed P) (h : b.Has P) (name kind : String) :
    (b.drop name kind).builder.Has P := by
  unfold Builder.drop
  cases DropKind.parse kind with
  | error e => exact h
  | ok kind =>
    exact h.write hP (hP.append (hP.append (hP.append (hP.raw _) (hP.raw _)) (hP.raw _)) (hP.raw _))

theorem union (hP : Fragment.Closed P) (h : b.Has P) (choice : UnionChoice) :
    (b.union choice).builder.Has P := by
  unfold Builder.union
  cases choice.resolve with
  | error e => exact h
  | ok mode => exact ⟨hP.append h.sql (hP.raw _), h.rows, h.groups⟩

theorem reset (hP : Fragment.Closed P) (b : Builder) : b.reset.Has P :=
  ⟨hP.empty, List.forall_mem_nil _, List.forall_mem_nil _⟩

/-- A call that embeds statements with the property keeps it. -/
theorem call (hP : Fragment.Closed P) (h : b.Has P) {c : Call} (hc : ∀ f ∈ c.statements, P f) :
    (b.call c).builder.Has P := by
  cases c with
  | autoQuoteValues enabled => exact ⟨h.sql, h.rows, h.groups⟩
  | filter predicates =>
    exact ⟨h.sql, fun p hp f hf => hc f (List.mem_flatMap_of_mem hp hf), h.groups⟩
  | having predicates =>
    exact ⟨h.sql, h.rows, fun p hp f hf => hc f (List.mem_flatMap_of_mem hp hf)⟩
  | select distinct tables columns keywords => exact h.select hP distinct hc columns keywords
  | insert ignore table values columns => exact h.insert hP ignore table hc columns
  | update tables assignments limit =>
    obtain ⟨htables, hset⟩ := List.forall_mem_append.mp hc
    exact h.update hP htables hset limit
  | delete table limit => exact h.delete hP table limit
  | truncate table =>
    exact h.cleared.write hP (hP.append (hP.raw _) (hP.raw _))
  | appendRaw text => exact ⟨hP.append h.sql (hP.raw text), h.rows, h.groups⟩
  | append statement =>
    exact ⟨hP.append h.sql (hc statement List.mem_cons_self), h.rows, h.groups⟩
  | createView name replace =>
    have hwritten : (b.write .raw _).Has P := h.write hP
      (hP.append (hP.append (hP.append (hP.append (hP.raw "CREATE ")
        (hP.raw (if replace then "OR REPLACE " else ""))) (hP.raw "VIEW ")) (hP.raw name))
        (hP.raw " AS "))
    exact ⟨hwritten.sql, hwritten.rows, hwritten.groups⟩
  | drop name kind =>
    rw [Builder.call]
    exact h.drop hP name kind
  | union choice =>
    rw [Builder.call]
    exact h.union hP choice
  | reset => exact reset hP b

theorem handedOver (hP : Fragment.Closed P) (h : b.Has P) (style : PlaceholderStyle) :
    (b.handedOver style).Has P := by
  unfold Builder.handedOver
  cases b.statementFor style with
  | error e => exact h
  | ok statement => exact reset hP _

end Builder.Has

end BoundSql
