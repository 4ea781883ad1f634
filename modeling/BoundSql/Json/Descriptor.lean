import BoundSql.Config
import BoundSql.Json.Number
import BoundSql.Json.Tree
import BoundSql.Predicate.Basic
import BoundSql.Statement.Parts
import BoundSql.Table.Basic

/-!
# Descriptors in JSON

How values, predicates, tables, keyword clauses and options are written in JSON, and how they are
read from it. There is no partial result: a tree either fits a type or it does not.

What is read in full may be nested in at most `maxDepth` arrays and objects; the functions on types
whose depth is not bounded by the type itself count down the `levels` that are left. A member of a
record that no field asks for is not looked at, except inside a table entry, all of which is read.
-/

namespace BoundSql

open Json (Tree StringToken NumberToken)

namespace Json

/-- How deeply arrays and objects may be nested in what is read. -/
def maxDepth : Nat := 127

/-! ### Reading in full -/

mutual

/-- All of the tree can be read: it is nested in at most `levels` arrays and objects, its strings
write texts and its numbers have values. -/
def Tree.isReadable (levels : Nat) : Tree → Bool
  | .null | .bool _ => true
  | .number n => n.value?.isSome
  | .string s => s.isSome
  | .array items => 0 < levels && allReadable (levels - 1) items
  | .object members => 0 < levels && membersReadable (levels - 1) members

/-- All of the trees can be read. -/
def allReadable (levels : Nat) : List Tree → Bool
  | [] => true
  | t :: ts => t.isReadable levels && allReadable levels ts

/-- All names and values of the members can be read. -/
def membersReadable (levels : Nat) : List (StringToken × Tree) → Bool
  | [] => true
  | (key, t) :: ms => key.isSome && t.isReadable levels && membersReadable levels ms

end

/-! ### Records -/

/-- The value of the member with one of the names, if there is one; two such members are refused. -/
def member? (names : List String) (members : List (StringToken × Tree)) : Option (Option Tree) :=
  match members.filter fun m => m.1.any names.contains with
  | [] => some none
  | [m] => some (some m.2)
  | _ => none

/-- The values of a record's fields, each of which has one or more names. A record is an object, or
an array of the values in the order of the fields, from which those at the end may be missing. -/
def fields? (names : List (List String)) : Tree → Option (List (Option Tree))
  | .object members =>
    if members.all fun m => m.1.isSome then names.mapM fun ns => member? ns members else none
  | .array items =>
    if items.length ≤ names.length then
      some (items.map some ++ List.replicate (names.length - items.length) none)
    else none
  | _ => none

/-- Read a field, or take its default if it is missing. -/
def field? {α : Type} (default : α) (read : Tree → Option α) : Option Tree → Option α
  | none => some default
  | some t => read t

def text? : Tree → Option String
  | .string s => s
  | _ => none

/-- Read a text that may be `null`. -/
def optionalText? : Tree → Option (Option String)
  | .null => some none
  | .string (some s) => some (some s)
  | _ => none

def bool? : Tree → Option Bool
  | .bool b => some b
  | _ => none

/-- Read one of several names: a text, or an object with the name as its only member and no value.
-/
def choice? {α : Type} (names : List (String × α)) : Tree → Option α
  | .string (some s) => names.lookup s
  | .object [(some s, .null)] => names.lookup s
  | _ => none

end Json

/-! ### Values -/

/-- Read a scalar: an integer of 64 signed bits, any other number, or a text. -/
def Scalar.ofJson? : Tree → Option Scalar
  | .number n =>
    match n.value? with
    | some (.integer i) =>
      some (if i < Number.pow2 63 then .int (Int64.ofInt i) else .float (.ofInt i))
    | some (.float x) => some (.float x)
    | none => none
  | .string (some s) => some (.text s)
  | _ => none

namespace Value

mutual

/-- Read a value: a scalar, except that the text `?` is the placeholder, or a list. -/
def ofJson? (levels : Nat) : Tree → Option Value
  | .array items => if 0 < levels then (listOfJson? (levels - 1) items).map .list else none
  | t =>
    match Scalar.ofJson? t with
    | some (.text s) => some (.ofText s)
    | some s => some (.scalar s)
    | none => none

def listOfJson? (levels : Nat) : List Tree → Option (List Value)
  | [] => some []
  | t :: ts =>
    match ofJson? levels t, listOfJson? levels ts with
    | some v, some vs => some (v :: vs)
    | _, _ => none

end

end Value

/-! ### Predicates -/

def Operator.ofJson? (t : Tree) : Option Operator := (Json.text? t).map parse

namespace Predicate

def fieldNames : List (List String) :=
  [["expression", "expr"], ["value"], ["operator"], ["connector"]]

/-- Read a predicate. Only the expression must be there. -/
def ofJson? (levels : Nat) (t : Tree) : Option Predicate :=
  match Json.fields? fieldNames t with
  | some [some expression, value, operator, connector] => do
    let expression ← Json.text? expression
    let value ← Json.field? Value.missing (Value.ofJson? (levels - 1)) value
    let operator ← Json.field? .eq Operator.ofJson? operator
    let connector ← Json.field? none Json.optionalText? connector
    return { expression, value, operator, connector }
  | _ => none

def listOfJson? (levels : Nat) : Tree → Option (List Predicate)
  | .array items => items.mapM (ofJson? (levels - 1))
  | _ => none

end Predicate

/-! ### Tables -/

namespace TableRef

/-- The entry with a name, a label unless it is empty, and a join if its type or its condition is
given. -/
def ofParts (name : String) (label joinType on : Option String) : TableRef :=
  let base := match label with
    | none | some "" => .plain name
    | some label => .aliased name label
  if joinType.isNone && on.isNone then base else .joined base joinType on

/-- Read a table entry: a name, or an object with a name and possibly a label and a join. -/
def ofJson? (levels : Nat) : Tree → Option TableRef
  | .string (some name) => some (.plain name)
  | .object members =>
    if (Tree.object members).isReadable levels then
      match Json.fields? [["name"], ["as"], ["join"], ["on"]] (.object members) with
      | some [some name, label, joinType, on] => do
        let name ← Json.text? name
        let label ← Json.field? none Json.optionalText? label
        let joinType ← Json.field? none Json.optionalText? joinType
        let on ← Json.field? none Json.optionalText? on
        return ofParts name label joinType on
      | _ => none
    else none
  | _ => none

end TableRef

/-- Read a table list: an array of entries, or one entry. -/
def Tables.ofJson? (levels : Nat) : Tree → Option Tables
  | .array items => items.mapM (TableRef.ofJson? (levels - 1))
  | t => (TableRef.ofJson? levels t).map fun table => [table]

/-! ### Keyword clauses -/

namespace KeywordClauses

/-- Read the entries of a clause: a natural number of 64 bits, a text, or an array of texts. -/
def entries? : Tree → Option (List String)
  | .number n =>
    match n.value? with
    | some (.integer i) => if 0 ≤ i then some [Number.integerText i] else none
    | _ => none
  | .string (some s) => some [s]
  | .array items => items.mapM Json.text?
  | _ => none

/-- Read keyword clauses; a clause that is missing has no entries. -/
def ofJson? (t : Tree) : Option KeywordClauses :=
  match Json.fields? [["group_by"], ["order_by"], ["limit"], ["offset"]] t with
  | some [groupBy, orderBy, limit, offset] => do
    let groupBy ← Json.field? [] entries? groupBy
    let orderBy ← Json.field? [] entries? orderBy
    let limit ← Json.field? [] entries? limit
    let offset ← Json.field? [] entries? offset
    return { groupBy, orderBy, limit, offset }
  | _ => none

end KeywordClauses

/-! ### Options -/

def RenderMode.ofJson? : Tree → Option RenderMode :=
  Json.choice? [("literal", .literal), ("parameterized", .parameterized)]

def PlaceholderStyle.ofJson? : Tree → Option PlaceholderStyle :=
  Json.choice? [("question", .question), ("numbered", .numbered)]

/-- Read options; one that is missing has its default. -/
def Config.ofJson? (t : Tree) : Option Config :=
  let names := [["auto_quote_values"], ["render"], ["placeholder"], ["escape_literals"]]
  match Json.fields? names t with
  | some [quote, render, placeholder, escape] => do
    let autoQuoteValues ← Json.field? true Json.bool? quote
    let render ← Json.field? .literal RenderMode.ofJson? render
    let placeholder ← Json.field? .question PlaceholderStyle.ofJson? placeholder
    let escapeLiterals ← Json.field? false Json.bool? escape
    return { autoQuoteValues, render, placeholder, escapeLiterals }
  | _ => none

end BoundSql
