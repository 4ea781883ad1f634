import BoundSql.Statement.Kind
import BoundSql.Table.Basic

/-!
# Trace events

What a statement builder reports while it works, in the order in which it happens.
-/

namespace BoundSql

inductive Event where
  /-- A statement was written: its type, the scalars bound in the whole accumulated fragment, and
  the fragment's text. -/
  | compiled (type : StatementType) (paramCount : Nat) (sql : String)
  /-- A statement is handed to an executor: what was written last, and the text and the number of
  parameters that are handed over. -/
  | executing (type : Option StatementType) (paramCount : Nat) (sql : String)
  /-- Emptying a table drops predicates that were waiting for a statement. -/
  | predicatesDiscarded (table : String) (rows groups : Nat)
  /-- An entry that was meant as a join is written as its base. -/
  | joinDowngraded (base : TableRef)
  deriving DecidableEq

/-- A result with the events reported on the way to it. -/
structure Traced (α : Type) where
  value : α
  events : List Event

namespace Traced

def silent {α : Type} (a : α) : Traced α := ⟨a, []⟩

/-- Report an event before the events of a result. -/
def after {α : Type} (e : Event) (t : Traced α) : Traced α := ⟨t.value, e :: t.events⟩

def map {α β : Type} (f : α → β) (t : Traced α) : Traced β := ⟨f t.value, t.events⟩

end Traced

end BoundSql
