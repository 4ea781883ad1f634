import BoundSql.Fragment.Basic

/-!
# Values of predicates, inserts and assignments

What a value is, is decided when it is built: a scalar, the caller's placeholder `?`, a list (for
`IN`, `BETWEEN` and `VALUES`) or an embedded statement.
-/

namespace BoundSql

inductive Value where
  | scalar (s : Scalar)
  /-- The caller's `?`, which is never quoted. -/
  | placeholder
  | list (items : List Value)
  /-- A statement that is put in parentheses. -/
  | statement (sub : Fragment)

namespace Value

/-- A text stands for itself, except that `?` is the placeholder. -/
def ofText (s : String) : Value := if s = "?" then .placeholder else .scalar (.text s)

/-- The list without items, which is what a predicate without a value has. -/
def missing : Value := .list []

/-- How many items a list has; any other value counts as one. -/
def size : Value → Nat
  | .list items => items.length
  | _ => 1

/-- Is the list without items. -/
def isEmpty : Value → Bool
  | .list items => items.isEmpty
  | _ => false

mutual

/-- Equal in structure, with scalars compared as values. -/
def valueEq : Value → Value → Bool
  | .scalar s, .scalar t => s.valueEq t
  | .placeholder, .placeholder => true
  | .list vs, .list ws => listEq vs ws
  | .statement a, .statement b => a.valueEq b
  | _, _ => false

def listEq : List Value → List Value → Bool
  | [], [] => true
  | v :: vs, w :: ws => valueEq v w && listEq vs ws
  | _, _ => false

end

end Value

end BoundSql
