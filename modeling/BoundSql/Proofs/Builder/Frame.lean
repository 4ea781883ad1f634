import BoundSql.Proofs.Builder.Accumulation
import BoundSql.Proofs.Except

/-!
# Statements around their clauses

What a call writes consists of a *frame*, in which no pending predicate occurs, and of the clauses
that it takes, each compiled from the list that waits for it (`framed_call`). `SELECT` takes both
clauses, `UPDATE` and `DELETE` take `WHERE`, and no other call takes any.
-/

namespace BoundSql

open Fragment (raw)

/-- The list that waits for a clause. -/
def Builder.pending (b : Builder) : ClauseKeyword → List Predicate
  | .rows => b.pendingWhere
  | .groups => b.pendingHaving

/-- The call writes a statement with the clause. -/
def Call.takes : Call → ClauseKeyword → Bool
  | .select _ _ _ _, _ => true
  | .update _ _ _, .rows | .delete _ _, .rows => true
  | _, _ => false

/-! ### Frames -/

/-- The text of a statement without its clauses. -/
structure Frame where
  /-- Up to the `WHERE` clause. -/
  front : Fragment
  /-- Between the clauses. -/
  middle : Fragment := .empty
  /-- Behind the `HAVING` clause. -/
  back : Fragment := .empty

/-- The statement with both clauses in their places. -/
def Frame.around (f : Frame) (clause : ClauseKeyword → Fragment) : Fragment :=
  f.front ++ clause .rows ++ f.middle ++ clause .groups ++ f.back

/-- What a call writes apart from its clauses. A call that takes none writes what it would write on
a new builder, on which nothing waits. -/
def Call.frame (config : Config) : Call → Frame
  | .select distinct tables columns keywords =>
    { front := raw "SELECT " ++ raw (if distinct then "DISTINCT " else "") ++
        raw (if columns.isEmpty then "*" else columns.text) ++ raw " FROM " ++
        (compileTables tables).value
      middle := raw (keywords.clause .groupBy)
      back := raw (keywords.clause .orderBy) ++ raw (keywords.clause .limit) ++
        raw (keywords.clause .offset) }
  | .update tables assignments limit =>
    { front := raw "UPDATE " ++ (compileTables tables).value ++ raw " SET " ++
        assignments.compile config.autoQuoteValues
      back := raw ((KeywordClauses.ofLimit limit).clause .limit) }
  | .delete table limit =>
    { front := raw "DELETE FROM " ++ raw table
      back := raw ((KeywordClauses.ofLimit limit).clause .limit) }
  | c => { front := ((Builder.ofConfig config).contributionOf c).text }

namespace Builder

variable {b : Builder}

/-- A fragment for each clause that the call takes, compiled from the list that waits for it, and
nothing for a clause that the call does not take. -/
structure Clauses (b : Builder) (c : Call) (clause : ClauseKeyword → Fragment) : Prop where
  taken : ∀ k, c.takes k = true →
    compileClause k b.config.autoQuoteValues (b.pending k) = .ok (clause k)
  absent : ∀ k, c.takes k = false → clause k = .empty

/-- What a call contributes is its frame around its clauses. -/
def Framed (b : Builder) (c : Call) : Prop :=
  ∃ clause, b.Clauses c clause ∧ (b.contributionOf c).text = (c.frame b.config).around clause

/-! ### Clauses of the statements that take them -/

theorem exists_tail_of_select {distinct : Bool} {tables : Tables} {columns : Columns}
    {keywords : KeywordClauses}
    (hok : (b.select distinct tables columns keywords).result = .ok ()) :
    ∃ tail, b.selectTail keywords = .ok tail := by
  rw [select] at hok
  cases h : b.selectTail keywords with
  | error e =>
    rw [h] at hok
    cases hok
  | ok tail => exact ⟨tail, rfl⟩

theorem exists_tail_of_update {tables : Tables} {assignments : SetClause} {limit : Option Nat}
    (hok : (b.update tables assignments limit).result = .ok ()) :
    ∃ tail, b.changeTail limit = .ok tail := by
  rw [update] at hok
  cases h : b.changeTail limit with
  | error e =>
    rw [h] at hok
    cases hok
  | ok tail => exact ⟨tail, rfl⟩

theorem exists_tail_of_delete {table : String} {limit : Option Nat}
    (hok : (b.delete table limit).result = .ok ()) : ∃ tail, b.changeTail limit = .ok tail := by
  rw [delete] at hok
  cases h : b.changeTail limit with
  | error e =>
    rw [h] at hok
    cases hok
  | ok tail => exact ⟨tail, rfl⟩

/-- The clauses of a call that takes both. -/
theorem clauses_both {c : Call} {rows groups : Fragment} (hc : ∀ k, c.takes k = true)
    (hrows : compileClause .rows b.config.autoQuoteValues b.pendingWhere = .ok rows)
    (hgroups : compileClause .groups b.config.autoQuoteValues b.pendingHaving = .ok groups) :
    b.Clauses c fun | .rows => rows | .groups => groups := by
  refine ⟨fun k _ => ?_, fun k hk => ?_⟩
  · cases k with
    | rows => exact hrows
    | groups => exact hgroups
  · rw [hc k] at hk
    cases hk

/-- The clauses of a call that takes `WHERE` alone. -/
theorem clauses_rows {c : Call} {rows : Fragment} (htakes : c.takes .rows = true)
    (hkeeps : c.takes .groups = false)
    (hrows : compileClause .rows b.config.autoQuoteValues b.pendingWhere = .ok rows) :
    b.Clauses c fun | .rows => rows | .groups => .empty := by
  refine ⟨fun k hk => ?_, fun k hk => ?_⟩
  · cases k with
    | rows => exact hrows
    | groups =>
      rw [hkeeps] at hk
      cases hk
  · cases k with
    | rows =>
      rw [htakes] at hk
      cases hk
    | groups => rfl

/-- A builder that continues nothing holds exactly what was written last. -/
theorem sql_commit_fresh (b : Builder) (rows groups : List Predicate) (type : StatementType)
    (statement : Fragment) (events : List Event) :
    ({ b.fresh with pendingWhere := rows, pendingHaving := groups }.commit type statement
      events).builder.sql = statement := rfl

theorem framed_select {distinct : Bool} {tables : Tables} {columns : Columns}
    {keywords : KeywordClauses}
    (hok : (b.select distinct tables columns keywords).result = .ok ()) :
    b.Framed (.select distinct tables columns keywords) := by
  obtain ⟨tail, htail⟩ := exists_tail_of_select hok
  -- the clauses are compiled from what a new builder shares with this one
  have hfresh : b.fresh.selectTail keywords = .ok tail := htail
  obtain ⟨rows, hrows, h⟩ := exists_of_bind_eq_ok htail
  obtain ⟨groups, hgroups, h⟩ := exists_of_bind_eq_ok h
  cases h
  refine ⟨_, clauses_both (fun _ => rfl) hrows hgroups, ?_⟩
  show (b.fresh.select distinct tables columns keywords).builder.sql = _
  rw [select, hfresh]
  simp only [sql_commit_fresh, Frame.around, Call.frame, Fragment.append_assoc]

theorem framed_update {tables : Tables} {assignments : SetClause} {limit : Option Nat}
    (hok : (b.update tables assignments limit).result = .ok ()) :
    b.Framed (.update tables assignments limit) := by
  obtain ⟨tail, htail⟩ := exists_tail_of_update hok
  have hfresh : b.fresh.changeTail limit = .ok tail := htail
  obtain ⟨rows, hrows, h⟩ := exists_of_bind_eq_ok htail
  cases h
  refine ⟨_, clauses_rows rfl rfl hrows, ?_⟩
  show (b.fresh.update tables assignments limit).builder.sql = _
  rw [update, hfresh]
  simp only [sql_commit_fresh, Frame.around, Call.frame, Fragment.append_assoc,
    Fragment.empty_append]
  rfl

theorem framed_delete {table : String} {limit : Option Nat}
    (hok : (b.delete table limit).result = .ok ()) : b.Framed (.delete table limit) := by
  obtain ⟨tail, htail⟩ := exists_tail_of_delete hok
  have hfresh : b.fresh.changeTail limit = .ok tail := htail
  obtain ⟨rows, hrows, h⟩ := exists_of_bind_eq_ok htail
  cases h
  refine ⟨_, clauses_rows rfl rfl hrows, ?_⟩
  show (b.fresh.delete table limit).builder.sql = _
  rw [delete, hfresh]
  simp only [sql_commit_fresh, Frame.around, Call.frame, Fragment.append_assoc,
    Fragment.empty_append]

/-! ### All calls -/

/-- A call that takes no list contributes the same whatever waits. -/
theorem framed_of_independent {c : Call} (htakes : ∀ k, c.takes k = false)
    (hframe : c.frame b.config = { front := (b.contributionOf c).text }) : b.Framed c := by
  refine ⟨fun _ => .empty, ⟨fun k hk => ?_, fun _ _ => rfl⟩, ?_⟩
  · rw [htakes k] at hk
    cases hk
  · rw [hframe]
    simp only [Frame.around, Fragment.append_empty]

/-- Unfolded by hand: the kinds are words, which are slow to compare. -/
theorem text_contributionOf_drop (b : Builder) (name kind : String) :
    (b.contributionOf (.drop name kind)).text = (b.fresh.drop name kind).builder.sql := by
  rw [contributionOf_of_type rfl, Contribution.text, own, call]

/-- A call that succeeds contributes its frame around its clauses. -/
theorem framed_call {c : Call} (hok : (b.call c).result = .ok ()) : b.Framed c := by
  cases c with
  | select distinct tables columns keywords => exact framed_select hok
  | update tables assignments limit => exact framed_update hok
  | delete table limit => exact framed_delete hok
  | drop name kind =>
    refine framed_of_independent (fun _ => rfl) ?_
    show Frame.mk ((ofConfig b.config).contributionOf (.drop name kind)).text .empty .empty = _
    rw [text_contributionOf_drop, text_contributionOf_drop, drop, drop]
    cases DropKind.parse kind <;> rfl
  | autoQuoteValues _ | filter _ | having _ | insert _ _ _ _ | truncate _ | appendRaw _ | append _
  | createView _ _ | union _ | reset => exact framed_of_independent (fun _ => rfl) rfl

end Builder

end BoundSql
