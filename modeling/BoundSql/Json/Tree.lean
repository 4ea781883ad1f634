import BoundSql.Json.Token

/-!
# JSON trees

The tree that a JSON text writes. Objects keep their members in order, and members of the same name
side by side: what they mean is for the reader of the tree to decide.

A tree is built from tokens by a machine with a stack of the arrays and objects that are still open,
so that neither the depth of a text nor its length matters.
-/

namespace BoundSql.Json

inductive Tree where
  | null
  | bool (b : Bool)
  | number (n : NumberToken)
  | string (s : StringToken)
  | array (items : List Tree)
  | object (members : List (StringToken × Tree))

/-- An array or object that is still open, with what has been read of it, latest first. -/
inductive Frame where
  | array (items : List Tree)
  /-- The value of the member `name` comes next. -/
  | object (members : List (StringToken × Tree)) (name : StringToken)

/-- What a builder of trees waits for. -/
inductive TreeBuilder where
  /-- A value; with `orEnd`, the end of an array will do. -/
  | value (stack : List Frame) (orEnd : Bool)
  /-- The name of a member; with `orEnd`, the end of the object will do. -/
  | name (stack : List Frame) (members : List (StringToken × Tree)) (orEnd : Bool)
  | colon (stack : List Frame) (members : List (StringToken × Tree)) (name : StringToken)
  /-- A comma or the end of an array. -/
  | afterItem (stack : List Frame) (items : List Tree)
  /-- A comma or the end of an object. -/
  | afterMember (stack : List Frame) (members : List (StringToken × Tree))
  /-- Nothing: the tree is complete. -/
  | done (tree : Tree)

namespace TreeBuilder

/-- Put a complete tree into the innermost open array or object. -/
def put (stack : List Frame) (t : Tree) : TreeBuilder :=
  match stack with
  | [] => .done t
  | .array items :: stack => .afterItem stack (t :: items)
  | .object members n :: stack => .afterMember stack ((n, t) :: members)

def step : TreeBuilder → Token → Option TreeBuilder
  | .value stack _, .null => some (put stack .null)
  | .value stack _, .bool b => some (put stack (.bool b))
  | .value stack _, .number n => some (put stack (.number n))
  | .value stack _, .string s => some (put stack (.string s))
  | .value stack _, .openArray => some (.value (.array [] :: stack) true)
  | .value stack _, .openObject => some (.name stack [] true)
  | .value (.array _ :: stack) true, .closeArray => some (put stack (.array []))
  | .name stack members _, .string s => some (.colon stack members s)
  | .name stack _ true, .closeObject => some (put stack (.object []))
  | .colon stack members n, .colon => some (.value (.object members n :: stack) false)
  | .afterItem stack items, .comma => some (.value (.array items :: stack) false)
  | .afterItem stack items, .closeArray => some (put stack (.array items.reverse))
  | .afterMember stack members, .comma => some (.name stack members false)
  | .afterMember stack members, .closeObject => some (put stack (.object members.reverse))
  | _, _ => none

end TreeBuilder

namespace Tree

def ofTokens? (tokens : List Token) : Option Tree :=
  match tokens.foldlM TreeBuilder.step (.value [] false) with
  | some (.done tree) => some tree
  | _ => none

def parse? (text : String) : Option Tree := (scan text.toList).bind ofTokens?

end Tree

end BoundSql.Json
