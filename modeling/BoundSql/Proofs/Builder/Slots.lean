import BoundSql.Proofs.Builder.Frame
import BoundSql.Proofs.Statement.Slots

/-!
# Every value has its slots

A statement mentions the statements of its table list, then the values that are inserted or
assigned, then the values of the predicates of its clauses. It has the slots of these values in that
order and no others (`slots_of_written_statement`): no value is lost, doubled or moved by what is
written around it.
-/

namespace BoundSql

open Fragment (raw)

/-! ### Mentioned values -/

/-- The values that a statement mentions outside its clauses. -/
def Call.values : Call → List Value
  | .select _ tables _ _ => tables.flatMap TableRef.values
  | .insert _ _ values _ => [values]
  | .update tables assignments _ => tables.flatMap TableRef.values ++ assignments.values
  | _ => []

namespace Builder

variable {b : Builder}

/-- The values of the predicates that wait for a clause of the call. -/
def clauseValues (b : Builder) (c : Call) (k : ClauseKeyword) : List Value :=
  if c.takes k then (b.pending k).flatMap Predicate.values else []

/-- The values that a statement mentions, in the order in which it does. -/
def values (b : Builder) (c : Call) : List Value :=
  c.values ++ b.clauseValues c .rows ++ b.clauseValues c .groups

/-! ### Frames and clauses -/

/-- A clause of the call has the slots of the predicates that wait for it. -/
theorem Clauses.slots {c : Call} {clause : ClauseKeyword → Fragment} (h : b.Clauses c clause)
    (k : ClauseKeyword) :
    (clause k).slots = (b.clauseValues c k).flatMap (Value.slots b.config.autoQuoteValues) := by
  unfold clauseValues
  split
  · next htakes =>
    rw [slots_compileClause (h.taken k htakes), List.flatMap_assoc]
    rfl
  · next hkeeps =>
    rw [h.absent k (by simpa using hkeeps)]
    rfl

/-- Whether the kind is known or not, no value is mentioned. -/
theorem slots_sql_drop (hb : b.sql.slots = []) (name kind : String) :
    (b.drop name kind).builder.sql.slots = [] := by
  rw [drop]
  cases DropKind.parse kind with
  | error e => exact hb
  | ok kind =>
    show (if b.isContinuing then b.sql ++ _ else _ : Fragment).slots = []
    split
    · simp [hb]
    · simp

end Builder

/-- An embedded statement is inserted as it is, and any other value in parentheses. -/
theorem slots_insertSource (quote : Bool) (v : Value) :
    (Builder.insertSource quote v).slots = v.slots quote := by
  cases v with
  | statement sub =>
    rw [Builder.insertSource, Value.slots]
    simp
  | scalar _ | placeholder | list _ =>
    rw [Builder.insertSource, ← Value.slots_joined]
    · simp
    · rintro sub ⟨⟩

namespace Call

/-- The frame has the slots of the values that the statement mentions outside its clauses. -/
theorem slots_frame (config : Config) {c : Call} {type : StatementType}
    (htype : c.type? = some type) (clause : ClauseKeyword → Fragment) :
    ((c.frame config).around clause).slots =
      c.values.flatMap (Value.slots config.autoQuoteValues) ++ (clause .rows).slots ++
        (clause .groups).slots := by
  cases c with
  | select distinct tables columns keywords =>
    rw [values, ← slots_compileTables]
    simp [frame, Frame.around]
  | update tables assignments limit =>
    rw [values, List.flatMap_append, ← slots_compileTables, ← SetClause.slots_compile]
    simp [frame, Frame.around]
  | delete table limit => simp [frame, Frame.around, values]
  | insert ignore table inserted columns =>
    have hframe : frame config (.insert ignore table inserted columns) =
        { front := raw "INSERT " ++ raw (if ignore then "IGNORE " else "") ++ raw "INTO " ++
            raw table ++ raw (if columns.isEmpty then "" else "(" ++ columns.text ++ ")") ++
            Builder.insertSource config.autoQuoteValues inserted } := rfl
    rw [hframe]
    simp [Frame.around, values, slots_insertSource]
  | truncate table =>
    have hframe : frame config (.truncate table) =
        { front := raw "DELETE FROM " ++ raw table } := rfl
    rw [hframe]
    simp [Frame.around, values]
  | drop name kind =>
    have hframe : frame config (.drop name kind) =
        { front := ((Builder.ofConfig config).contributionOf (.drop name kind)).text } := rfl
    have hslots : ((Builder.ofConfig config).fresh.drop name kind).builder.sql.slots = [] :=
      Builder.slots_sql_drop rfl name kind
    rw [hframe, Builder.text_contributionOf_drop]
    simp [Frame.around, values, hslots]
  | autoQuoteValues _ | filter _ | having _ | appendRaw _ | append _ | createView _ _ | union _
  | reset => cases htype

end Call

namespace Builder

variable {b : Builder}

/-- A statement that is written has the slots of the values that it mentions, leaf by leaf and in
their order. With quoting off, it binds what the embedded statements bind, and nothing else. -/
theorem slots_of_written_statement {c : Call} {type : StatementType}
    (htype : c.type? = some type) (hok : (b.call c).result = .ok ()) :
    ∃ statement, b.Wrote type statement (b.call c).builder ∧
      statement.slots = (b.values c).flatMap (Value.slots b.config.autoQuoteValues) ∧
      statement.binds = statement.slots.filterMap Slot.bound? ∧
      statement.placeholderCount = statement.slots.count .supplied ∧
      (b.config.autoQuoteValues = false →
        statement.binds = ((b.values c).flatMap Value.statements).flatMap Fragment.binds) := by
  obtain ⟨clause, hclause, htext⟩ := framed_call hok
  have howned : (b.contributionOf c).text = b.own c := by
    rw [contributionOf_of_type htype, Contribution.text]
  have hslots : (b.own c).slots =
      (b.values c).flatMap (Value.slots b.config.autoQuoteValues) := by
    rw [← howned, htext, Call.slots_frame b.config htype, hclause.slots .rows,
      hclause.slots .groups, values, List.flatMap_append, List.flatMap_append]
  refine ⟨b.own c, wrote_of_ok htype hok, hslots, Fragment.binds_eq_filterMap_slots _,
    Fragment.placeholderCount_eq_count_slots _, fun hquote => ?_⟩
  rw [Fragment.binds_eq_filterMap_slots, hslots, hquote, List.filterMap_flatMap, List.flatMap_assoc]
  congr 1
  funext v
  exact v.bound_slots_unquoted

/-- A statement that binds a number. -/
def numbered (n : Int64) : Fragment := raw "SELECT id FROM t WHERE x = " ++ .bind (.int n)

/-- Predicates with nested lists, both kinds of placeholders, an embedded statement, and values that
are not mentioned. -/
def crowded (quote : Bool) : Builder :=
  ((ofConfig { autoQuoteValues := quote }).filter
    [.inList "a" [.scalar (.int 3), .list [.scalar (.text "?"), .placeholder],
        .statement (numbered 4)],
      (Predicate.ofValue "b" (.scalar (.int 9))).withOperator .isNull,
      .notInList "c" []]).having
    [.between "n" (.scalar (.int 5)) (.scalar (.text "z"))]

/-- A statement with a label, one behind a join that takes no effect, and one behind a join that
does. -/
def crowdedSelect : Call :=
  .select false
    [.statement (numbered 1) (some "s"), (TableRef.plain "u").leftJoin "a = b",
      (TableRef.statement (numbered 2) none).join "SIDEWAYS" "c = d"]
    [] {}

/-- The same selection with quoting on and with quoting off. -/
theorem slots_of_crowded_select :
    ((crowded true).call crowdedSelect).result = .ok () ∧
    (∃ statement, (crowded true).Wrote .select statement
        ((crowded true).call crowdedSelect).builder ∧
      statement.slots = [.bound (.int 1), .bound (.int 2), .bound (.int 3), .supplied, .supplied,
        .bound (.int 4), .bound (.int 5), .bound (.text "z")] ∧
      statement.binds = [.int 1, .int 2, .int 3, .int 4, .int 5, .text "z"] ∧
      statement.placeholderCount = 2) ∧
    ((crowded false).call crowdedSelect).result = .ok () ∧
    ∃ statement, (crowded false).Wrote .select statement
        ((crowded false).call crowdedSelect).builder ∧
      statement.slots = [.bound (.int 1), .bound (.int 2), .supplied, .bound (.int 4)] ∧
      statement.binds = [.int 1, .int 2, .int 4] := by
  have hquoted : ((crowded true).call crowdedSelect).result = .ok () := rfl
  have hplain : ((crowded false).call crowdedSelect).result = .ok () := rfl
  obtain ⟨quoted, hwrote, hslots, hbinds, hcount, -⟩ := slots_of_written_statement rfl hquoted
  obtain ⟨plain, hwrote', hslots', -, -, hbinds'⟩ := slots_of_written_statement rfl hplain
  refine ⟨hquoted, ⟨quoted, hwrote, hslots, ?_, ?_⟩, hplain, plain, hwrote', hslots', hbinds' rfl⟩
  · rw [hbinds, hslots]
    rfl
  · rw [hcount, hslots]
    rfl

end Builder

end BoundSql
