import BoundSql.Predicate.Basic
import BoundSql.Value.Quoting

/-!
# `WHERE` and `HAVING` clauses

A list of predicates is compiled to one clause: the keyword before the first predicate, the
connector of each later one before it. The first predicate that cannot be compiled makes the whole
clause fail; the connector of the first one is never looked at.
-/

namespace BoundSql

inductive ClauseKeyword where
  /-- `WHERE`, which filters rows. -/
  | rows
  /-- `HAVING`, which filters groups. -/
  | groups
  deriving DecidableEq

def ClauseKeyword.text : ClauseKeyword → String
  | .rows => "WHERE"
  | .groups => "HAVING"

namespace Predicate

open Fragment (raw)

/-- The expression and the operator, with a blank after each. -/
def comparison (p : Predicate) : Fragment :=
  raw p.expression ++ raw " " ++ raw p.operator.text ++ raw " "

/-- A range between the two values of a list. -/
def compileRange (quote : Bool) (p : Predicate) : Except SqlError Fragment :=
  match p.value with
  | .list [_, _] => .ok (p.comparison ++ .join " AND " (p.value.quotedItems quote))
  | _ => .error (.invalidArgument (.notTwoValues p.operator p.expression))

/-- Membership in a list or in the rows of a statement; membership in the empty list is `always`,
a comparison of constants that is false for `IN` and true for `NOT IN`. -/
def compileMembership (quote : Bool) (always : String) (p : Predicate) : Fragment :=
  match p.value with
  | .list [] => raw always
  | .statement sub => p.comparison ++ sub.parenthesized
  | value => p.comparison ++ (value.joined quote).parenthesized

/-- A comparison with a value that is not the empty list. -/
def compileComparison (quote : Bool) (p : Predicate) : Except SqlError Fragment :=
  if p.value.isEmpty then .error (.invalidArgument (.valueMissing p.operator p.expression))
  else .ok (p.comparison ++ p.value.joined quote)

/-- The text of a predicate, without its connector. -/
def compile (quote : Bool) (p : Predicate) : Except SqlError Fragment :=
  match p.operator with
  | .between | .notBetween => p.compileRange quote
  | .inList => .ok (p.compileMembership quote "1=0")
  | .notInList => .ok (p.compileMembership quote "1=1")
  | .isNull | .isNotNull => .ok (raw p.expression ++ raw " " ++ raw p.operator.text)
  | _ => p.compileComparison quote

/-- A predicate that follows another one, with a blank and its connector before it. -/
def compileNext (quote : Bool) (p : Predicate) : Except SqlError Fragment := do
  let connector ← p.resolvedConnector
  let body ← p.compile quote
  return raw " " ++ raw connector.text ++ raw " " ++ body

end Predicate

open Fragment (raw) in
/-- The clause of a list of predicates, with a blank before it; nothing for the empty list. -/
def compileClause (keyword : ClauseKeyword) (quote : Bool) :
    List Predicate → Except SqlError Fragment
  | [] => .ok .empty
  | p :: ps => do
    let first ← p.compile quote
    let later ← ps.mapM fun q => q.compileNext quote
    return raw " " ++ raw keyword.text ++ raw " " ++ first ++ .join "" later

/-- Compile the clause of a pending list and empty the list; a list that cannot be compiled is
kept. -/
def takeClause (keyword : ClauseKeyword) (quote : Bool) (pending : List Predicate) :
    Except SqlError Fragment × List Predicate :=
  match compileClause keyword quote pending with
  | .ok clause => (.ok clause, [])
  | .error e => (.error e, pending)

end BoundSql
