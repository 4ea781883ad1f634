import BoundSql.Error

/-!
# Kinds of statements

The closed choices that a statement makes: its type, how the parts of a union are combined, and what
kind of object is dropped; with the words by which callers name them.
-/

namespace BoundSql

/-- The type of the statement that was written last. -/
inductive StatementType where
  | raw
  | insert
  | select
  | update
  | delete
  deriving DecidableEq

/-- How a union treats rows that occur twice. -/
inductive UnionMode where
  | distinct
  | all
  deriving DecidableEq

namespace UnionMode

/-- The text between the parts of a union. -/
def text : UnionMode → String
  | .distinct => " UNION "
  | .all => " UNION ALL "

/-- Keep every row if the flag is set. -/
def ofBool (keepAll : Bool) : UnionMode := if keepAll then .all else .distinct

/-- Read a mode, without regard to case and to blanks around it; no text at all is `distinct`. -/
def parse (s : String) : Except SqlError UnionMode :=
  match Text.lower (Text.trim s) with
  | "" | "distinct" => .ok .distinct
  | "all" => .ok .all
  | _ => .error (.invalidArgument (.unionMode s))

end UnionMode

/-- How a caller names a union mode. -/
inductive UnionChoice where
  | mode (mode : UnionMode)
  /-- Whether to keep every row; not to say so is not to. -/
  | flag (keepAll : Option Bool)
  | word (text : String)
  deriving DecidableEq

def UnionChoice.resolve : UnionChoice → Except SqlError UnionMode
  | .mode m => .ok m
  | .flag keepAll => .ok (.ofBool (keepAll.getD false))
  | .word text => UnionMode.parse text

inductive DropKind where
  | database
  | table
  | view
  deriving DecidableEq

namespace DropKind

def text : DropKind → String
  | .database => "DATABASE"
  | .table => "TABLE"
  | .view => "VIEW"

/-- Read a kind, without regard to case and to blanks around it. -/
def parse (s : String) : Except SqlError DropKind :=
  match Text.lower (Text.trim s) with
  | "database" => .ok .database
  | "table" => .ok .table
  | "view" => .ok .view
  | _ => .error (.invalidArgument (.dropKind s))

end DropKind

end BoundSql
