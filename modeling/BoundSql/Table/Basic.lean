import BoundSql.Fragment.Basic
import BoundSql.Text.Blank
import BoundSql.Text.Casing

/-!
# Table entries

An entry of a table list is a table with or without an alias, a statement whose rows are used as a
table, or a join of another entry. A join takes effect only if its type is known and its condition
is not blank; `effectiveJoin` decides that.
-/

namespace BoundSql

inductive JoinType where
  | left
  | right
  | outer
  | inner
  | leftOuter
  | rightOuter
  deriving DecidableEq

namespace JoinType

def text : JoinType → String
  | .left => "LEFT JOIN"
  | .right => "RIGHT JOIN"
  | .outer => "OUTER JOIN"
  | .inner => "INNER JOIN"
  | .leftOuter => "LEFT OUTER JOIN"
  | .rightOuter => "RIGHT OUTER JOIN"

/-- Read a join type, without regard to case and to blanks around it. -/
def parse? (s : String) : Option JoinType :=
  match Text.upper (Text.trim s) with
  | "LEFT" => some .left
  | "RIGHT" => some .right
  | "OUTER" => some .outer
  | "INNER" => some .inner
  | "LEFT OUTER" => some .leftOuter
  | "RIGHT OUTER" => some .rightOuter
  | _ => none

end JoinType

inductive TableRef where
  | plain (name : String)
  /-- A table with the label by which the statement knows it. -/
  | aliased (name label : String)
  /-- A join of `base`, with its type and its condition as given. -/
  | joined (base : TableRef) (joinType : Option String) (on : Option String)
  /-- The rows of a statement. -/
  | statement (sub : Fragment) (label : Option String)
  deriving DecidableEq

abbrev Tables := List TableRef

namespace TableRef

def join (base : TableRef) (joinType on : String) : TableRef :=
  .joined base (some joinType) (some on)

def leftJoin (base : TableRef) (on : String) : TableRef := base.join "LEFT" on

def innerJoin (base : TableRef) (on : String) : TableRef := base.join "INNER" on

def rightJoin (base : TableRef) (on : String) : TableRef := base.join "RIGHT" on

/-- The type and the condition of a join that takes effect. -/
def joinClause? : TableRef → Option (JoinType × String)
  | .joined _ (some joinType) (some on) =>
    if Text.isBlank on then none else (JoinType.parse? joinType).map fun j => (j, on)
  | _ => none

/-- The type of a join that takes effect. -/
def effectiveJoin (t : TableRef) : Option JoinType := t.joinClause?.map Prod.fst

end TableRef

end BoundSql
