import BoundSql.Builder.Executor

/-!
# Histories of a builder

The calls on a builder as data, and what a sequence of them leads to. A call either works on the
builder alone or hands the statement to an executor.
-/

namespace BoundSql

/-- A call that works on the builder alone. -/
inductive Call where
  | autoQuoteValues (enabled : Bool)
  | filter (predicates : List Predicate)
  | having (predicates : List Predicate)
  | select (distinct : Bool) (tables : Tables) (columns : Columns) (keywords : KeywordClauses)
  | insert (ignore : Bool) (table : String) (values : Value) (columns : Columns)
  | update (tables : Tables) (assignments : SetClause) (limit : Option Nat)
  | delete (table : String) (limit : Option Nat)
  | truncate (table : String)
  | appendRaw (text : String)
  /-- Append the statement of a builder, without parentheses. -/
  | append (statement : Fragment)
  | createView (name : String) (replace : Bool)
  | drop (name kind : String)
  | union (choice : UnionChoice)
  | reset

/-- A call that cannot fail and reports nothing. -/
def Outcome.silent (b : Builder) : Outcome Unit := ⟨.ok (), b, []⟩

def Builder.call (b : Builder) : Call → Outcome Unit
  | .autoQuoteValues enabled => .silent (b.autoQuoteValues enabled)
  | .filter predicates => .silent (b.filter predicates)
  | .having predicates => .silent (b.having predicates)
  | .select distinct tables columns keywords => b.select distinct tables columns keywords
  | .insert ignore table values columns => b.insert ignore table values columns
  | .update tables assignments limit => b.update tables assignments limit
  | .delete table limit => b.delete table limit
  | .truncate table => b.truncate table
  | .appendRaw text => .silent (b.appendRaw text)
  | .append statement => .silent (b.append statement)
  | .createView name replace => b.createView name replace
  | .drop name kind => b.drop name kind
  | .union choice => b.union choice
  | .reset => .silent b.reset

inductive Step (m : Type → Type) (ρ : Type) where
  | call (c : Call)
  | fetchAll (executor : Executor m ρ)
  | execute (executor : Executor m ρ)

/-- What a step answers when it succeeds. -/
inductive Reply (ρ : Type) where
  | done
  | rows (rows : List ρ)
  | affected (count : Nat)
  deriving DecidableEq

def Outcome.map {α β : Type} (f : α → β) (o : Outcome α) : Outcome β :=
  ⟨o.result.map f, o.builder, o.events⟩

namespace Builder

variable {m : Type → Type} {ρ : Type}

def step [Monad m] (b : Builder) : Step m ρ → m (Outcome (Reply ρ))
  | .call c => pure ((b.call c).map fun _ => .done)
  | .fetchAll executor => return (← b.fetchAll executor).map .rows
  | .execute executor => return (← b.execute executor).map .affected

/-- Take steps one after another, whether they fail or not, and collect their outcomes. -/
def steps [Monad m] (b : Builder) : List (Step m ρ) → m (List (Outcome (Reply ρ)))
  | [] => pure []
  | s :: ss => do
    let outcome ← b.step s
    return outcome :: (← outcome.builder.steps ss)

end Builder

end BoundSql
