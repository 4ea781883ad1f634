import BoundSql.Fragment.Render
import BoundSql.Predicate.Clause
import BoundSql.Statement.Parts
import BoundSql.Table.Compile

/-!
# Statement builders

A builder accumulates one statement. Predicates for `WHERE` and `HAVING` are installed beforehand
and wait for a statement that takes them. A statement replaces what was accumulated, unless a
*continuation* is pending: after `UNION` and after `CREATE VIEW … AS` the next statement is appended
instead.
-/

namespace BoundSql

open Fragment (raw)

/-- What the next statement continues. -/
inductive Continuation where
  | union (mode : UnionMode)
  | createView
  deriving DecidableEq

structure Builder where
  config : Config := {}
  sql : Fragment := .empty
  /-- The type of what was written last. -/
  statementType : Option StatementType := none
  /-- The predicates that wait for a statement with a `WHERE` clause. -/
  pendingWhere : List Predicate := []
  /-- The predicates that wait for a statement with a `HAVING` clause. -/
  pendingHaving : List Predicate := []
  continuation : Option Continuation := none
  /-- The text that was handed to an executor last. -/
  lastSql : Option String := none

/-- What a call leaves behind: its result, the builder afterwards, and the events it reported. A
failed call has a builder afterwards, too. -/
structure Outcome (α : Type) where
  result : Except SqlError α
  builder : Builder
  events : List Event

namespace Builder

def ofConfig (config : Config) : Builder := { config }

/-- A new builder with the options of this one, for a statement to be embedded in it. -/
def subBuilder (b : Builder) : Builder := ofConfig b.config

/-! ### What is accumulated -/

/-- The accumulated statement with its parameters, as the builder's options say. -/
def build (b : Builder) : Rendered := b.sql.render b.config

def text (b : Builder) : String := b.build.sql

/-- The next statement is appended to what is accumulated. -/
def isContinuing (b : Builder) : Bool := b.continuation.isSome

/-! ### Options and pending predicates -/

def autoQuoteValues (enabled : Bool) (b : Builder) : Builder :=
  { b with config := { b.config with autoQuoteValues := enabled } }

/-- Install the predicates of the next `WHERE` clause. -/
def filter (predicates : List Predicate) (b : Builder) : Builder :=
  { b with pendingWhere := predicates }

/-- Install the predicates of the next `HAVING` clause. -/
def having (predicates : List Predicate) (b : Builder) : Builder :=
  { b with pendingHaving := predicates }

/-- Forget everything but the options and the text handed to an executor last. -/
def reset (b : Builder) : Builder := { config := b.config, lastSql := b.lastSql }

/-! ### Raw text -/

/-- Append a fragment as it is. -/
def append (fragment : Fragment) (b : Builder) : Builder :=
  { b with sql := b.sql ++ fragment, statementType := some .raw }

def appendRaw (text : String) (b : Builder) : Builder := b.append (raw text)

/-! ### Statements -/

/-- Write a statement: append it if a continuation is pending, and otherwise start anew with it. -/
def write (type : StatementType) (statement : Fragment) (b : Builder) : Builder :=
  { b with
    sql := if b.isContinuing then b.sql ++ statement else statement
    statementType := some type
    continuation := none }

/-- The event after a statement of the type was written. -/
def writtenEvent (type : StatementType) (b : Builder) : Event :=
  .compiled type b.sql.bindCount b.text

/-- Write a statement and report it after the events so far. -/
def commit (type : StatementType) (statement : Fragment) (events : List Event) (b : Builder) :
    Outcome Unit :=
  let after := b.write type statement
  ⟨.ok (), after, events ++ [after.writtenEvent type]⟩

/-- The clauses after the table list: `WHERE`, `GROUP BY`, `HAVING`, `ORDER BY`, `LIMIT` and
`OFFSET`. -/
def selectTail (keywords : KeywordClauses) (b : Builder) : Except SqlError Fragment := do
  let rows ← compileClause .rows b.config.autoQuoteValues b.pendingWhere
  let groups ← compileClause .groups b.config.autoQuoteValues b.pendingHaving
  return rows ++ raw (keywords.clause .groupBy) ++ groups ++ raw (keywords.clause .orderBy) ++
    raw (keywords.clause .limit) ++ raw (keywords.clause .offset)

/-- The clauses of a statement that changes rows: `WHERE` and `LIMIT`. -/
def changeTail (limit : Option Nat) (b : Builder) : Except SqlError Fragment := do
  let rows ← compileClause .rows b.config.autoQuoteValues b.pendingWhere
  return rows ++ raw ((KeywordClauses.ofLimit limit).clause .limit)

/-- Write a `SELECT`. It takes the predicates of both clauses. -/
def select (distinct : Bool) (tables : Tables) (columns : Columns) (keywords : KeywordClauses)
    (b : Builder) : Outcome Unit :=
  let source := compileTables tables
  match b.selectTail keywords with
  | .error e => ⟨.error e, b, source.events⟩
  | .ok tail =>
    let statement :=
      raw "SELECT " ++ raw (if distinct then "DISTINCT " else "") ++
        raw (if columns.isEmpty then "*" else columns.text) ++ raw " FROM " ++ source.value ++ tail
    { b with pendingWhere := [], pendingHaving := [] }.commit .select statement source.events

/-- The text of the inserted rows: an embedded statement as it is, or a list of values. -/
def insertSource (quote : Bool) : Value → Fragment
  | .statement sub => raw " " ++ sub
  | values => raw " VALUES " ++ (values.joined quote).parenthesized

/-- Write an `INSERT`; with `ignore`, rows that exist already are left alone. -/
def insert (ignore : Bool) (table : String) (values : Value) (columns : Columns) (b : Builder) :
    Outcome Unit :=
  let names := if columns.isEmpty then "" else "(" ++ columns.text ++ ")"
  let statement :=
    raw "INSERT " ++ raw (if ignore then "IGNORE " else "") ++ raw "INTO " ++ raw table ++
      raw names ++ insertSource b.config.autoQuoteValues values
  b.commit .insert statement []

/-- Write an `UPDATE`. It takes the predicates of the `WHERE` clause. -/
def update (tables : Tables) (assignments : SetClause) (limit : Option Nat) (b : Builder) :
    Outcome Unit :=
  let target := compileTables tables
  match b.changeTail limit with
  | .error e => ⟨.error e, b, target.events⟩
  | .ok tail =>
    let statement :=
      raw "UPDATE " ++ target.value ++ raw " SET " ++
        assignments.compile b.config.autoQuoteValues ++ tail
    { b with pendingWhere := [] }.commit .update statement target.events

/-- Write a `DELETE`. It takes the predicates of the `WHERE` clause. -/
def delete (table : String) (limit : Option Nat) (b : Builder) : Outcome Unit :=
  match b.changeTail limit with
  | .error e => ⟨.error e, b, []⟩
  | .ok tail =>
    { b with pendingWhere := [] }.commit .delete (raw "DELETE FROM " ++ raw table ++ tail) []

/-- Write a `DELETE` of all rows. Pending predicates are dropped, which is reported. -/
def truncate (table : String) (b : Builder) : Outcome Unit :=
  let warning :=
    if b.pendingWhere.isEmpty && b.pendingHaving.isEmpty then []
    else [.predicatesDiscarded table b.pendingWhere.length b.pendingHaving.length]
  { b with pendingWhere := [], pendingHaving := [] }.commit .delete
    (raw "DELETE FROM " ++ raw table) warning

/-- Write the beginning of a `CREATE VIEW`, which the next statement continues. -/
def createView (name : String) (replace : Bool) (b : Builder) : Outcome Unit :=
  let statement :=
    raw "CREATE " ++ raw (if replace then "OR REPLACE " else "") ++ raw "VIEW " ++ raw name ++
      raw " AS "
  let written := b.commit .raw statement []
  { written with builder := { written.builder with continuation := some .createView } }

def drop (name kind : String) (b : Builder) : Outcome Unit :=
  match DropKind.parse kind with
  | .error e => ⟨.error e, b, []⟩
  | .ok kind => b.commit .raw (raw "DROP " ++ raw kind.text ++ raw " " ++ raw name) []

/-- Append `UNION`, which the next statement continues. -/
def union (choice : UnionChoice) (b : Builder) : Outcome Unit :=
  match choice.resolve with
  | .error e => ⟨.error e, b, []⟩
  | .ok mode =>
    ⟨.ok (), { b with sql := b.sql ++ raw mode.text, continuation := some (.union mode) }, []⟩

end Builder

end BoundSql
