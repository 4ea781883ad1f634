import BoundSql.Text.Blank
import BoundSql.Text.Casing

/-!
# Operators of a predicate

An operator is read from its text without regard to case and to blanks around it. A text that is no
known operator is kept, trimmed and in upper case.

    parse " is null " = isNull      parse "" = eq      parse "ilike" = other "ILIKE"
-/

namespace BoundSql

/-- The operator between an expression and its value. -/
inductive Operator where
  | eq
  | ne
  | lt
  | gt
  | lte
  | gte
  | like
  | notLike
  | inList
  | notInList
  | between
  | notBetween
  | isNull
  | isNotNull
  /-- An operator of the database that is not in the list. -/
  | other (text : String)
  deriving DecidableEq

namespace Operator

def text : Operator → String
  | .eq => "="
  | .ne => "!="
  | .lt => "<"
  | .gt => ">"
  | .lte => "<="
  | .gte => ">="
  | .like => "LIKE"
  | .notLike => "NOT LIKE"
  | .inList => "IN"
  | .notInList => "NOT IN"
  | .between => "BETWEEN"
  | .notBetween => "NOT BETWEEN"
  | .isNull => "IS NULL"
  | .isNotNull => "IS NOT NULL"
  | .other text => text

/-- The operators with a meaning of their own. -/
def known : List Operator :=
  [.eq, .ne, .lt, .gt, .lte, .gte, .like, .notLike, .inList, .notInList, .between, .notBetween,
    .isNull, .isNotNull]

/-- Read an operator; no text at all is equality. -/
def parse (s : String) : Operator :=
  let normal := Text.upper (Text.trim s)
  if normal = "" then .eq
  else (known.find? fun op => op.text = normal).getD (.other normal)

end Operator

end BoundSql
