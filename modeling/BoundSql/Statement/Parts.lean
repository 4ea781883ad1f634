import BoundSql.Text.Blank
import BoundSql.Value.Quoting

/-!
# Parts of a statement

The lists of text that callers give for columns, assignments and the clauses `GROUP BY`, `ORDER BY`,
`LIMIT` and `OFFSET`, and how they are written.
-/

namespace BoundSql

open Fragment (raw)

/-! ### Columns -/

/-- A column list, each entry as given. -/
abbrev Columns := List String

namespace Columns

/-- No entry says anything. -/
def isEmpty (cs : Columns) : Bool := cs.all Text.isBlank

/-- The entries with commas between them, blank ones included. -/
def text (cs : Columns) : String := String.intercalate "," cs

end Columns

/-! ### Clauses after the table list -/

/-- A clause that is a keyword with a list of entries. -/
inductive Keyword where
  | groupBy
  | orderBy
  | limit
  | offset
  deriving DecidableEq

def Keyword.text : Keyword → String
  | .groupBy => "GROUP BY"
  | .orderBy => "ORDER BY"
  | .limit => "LIMIT"
  | .offset => "OFFSET"

/-- The entries of the four clauses, each as given. -/
structure KeywordClauses where
  groupBy : List String := []
  orderBy : List String := []
  limit : List String := []
  offset : List String := []
  deriving DecidableEq

namespace KeywordClauses

/-- Nothing but a limit, if there is one. -/
def ofLimit (limit : Option Nat) : KeywordClauses :=
  { limit := limit.toList.map Nat.repr }

def withLimit (limit : Nat) (k : KeywordClauses) : KeywordClauses :=
  { k with limit := [Nat.repr limit] }

def withOffset (offset : Nat) (k : KeywordClauses) : KeywordClauses :=
  { k with offset := [Nat.repr offset] }

def entries (k : KeywordClauses) : Keyword → List String
  | .groupBy => k.groupBy
  | .orderBy => k.orderBy
  | .limit => k.limit
  | .offset => k.offset

/-- The text of a clause with a blank before it: the entries that are not blank, trimmed, with
commas between them. A clause without such an entry is left out. -/
def clause? (k : KeywordClauses) (keyword : Keyword) : Option String :=
  match ((k.entries keyword).map Text.trim).filter (· != "") with
  | [] => none
  | entries => some (" " ++ keyword.text ++ " " ++ String.intercalate ", " entries)

/-- The text of a clause, which is nothing if the clause is left out. -/
def clause (k : KeywordClauses) (keyword : Keyword) : String := (k.clause? keyword).getD ""

end KeywordClauses

/-! ### Assignments -/

inductive SetClause where
  | pairs (assignments : List (String × Value))
  /-- Assignments in the caller's own words. -/
  | raw (text : String)

def SetClause.compile (quote : Bool) : SetClause → Fragment
  | .pairs assignments =>
    .join "," (assignments.map fun (column, value) =>
      Fragment.raw column ++ Fragment.raw "=" ++ value.joined quote)
  | .raw text => .raw (Text.trim text)

end BoundSql
