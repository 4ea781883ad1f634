import BoundSql.Config
import BoundSql.Value.Basic

/-!
# Quoting values

How a value is written into a statement. With quoting on, scalars become bind slots and the
placeholder stays bare, also where a scalar text is `?`. With quoting off, scalars are written as
plain text. An embedded statement is always put in parentheses.
-/

namespace BoundSql

/-- Write a scalar: as a bind slot if `quote` is set, otherwise as its plain text. -/
def Scalar.quoted (quote : Bool) (s : Scalar) : Fragment :=
  if quote then
    if s = .text "?" then .placeholder else .bind s
  else .raw s.plain

namespace Value

mutual

/-- Write a value, the items of a list with commas between them. -/
def joined (quote : Bool) : Value → Fragment
  | .scalar s => s.quoted quote
  | .placeholder => .placeholder
  | .list items => .join "," (joinedItems quote items)
  | .statement sub => sub.parenthesized

def joinedItems (quote : Bool) : List Value → List Fragment
  | [] => []
  | v :: vs => joined quote v :: joinedItems quote vs

end

/-- Write the items of a list separately; any other value is its own only item. -/
def quotedItems (quote : Bool) : Value → List Fragment
  | .list items => joinedItems quote items
  | v => [joined quote v]

end Value

end BoundSql
