import BoundSql.Builder.Basic

/-!
# Handing a statement to a database

A builder never talks to a database itself. An executor receives the accumulated statement as text
with parameters, in the executor's own placeholder style and whatever the builder's rendering
options are; afterwards the builder is reset, whether the executor succeeded or not.

Nothing is handed over, and nothing changes, if there is no statement, or if the statement holds
placeholders of the caller and the executor numbers its parameters.
-/

namespace BoundSql

/-- A database, as far as builders know it: it runs statements in the monad `m` and answers queries
with rows of type `ρ`. -/
structure Executor (m : Type → Type) (ρ : Type) where
  style : PlaceholderStyle := .question
  query : Rendered → m (Except SqlError (List ρ))
  execute : Rendered → m (Except SqlError Nat)

namespace Builder

variable {m : Type → Type} {ρ α : Type}

/-- The accumulated statement as an executor of the given style receives it. -/
def statementFor (style : PlaceholderStyle) (b : Builder) : Except SqlError Rendered :=
  if b.sql.isEmpty then .error (.invalidArgument .noStatement)
  else if style = .numbered && 0 < b.sql.placeholderCount then
    .error (.invalidArgument (.unboundPlaceholders b.sql.placeholderCount))
  else
    .ok (b.sql.render { b.config with render := .parameterized, placeholder := style })

/-- Hand the accumulated statement over by `send` and reset the builder. -/
def run [Monad m] (style : PlaceholderStyle) (send : Rendered → m (Except SqlError α))
    (b : Builder) : m (Outcome α) :=
  match b.statementFor style with
  | .error e => pure ⟨.error e, b, []⟩
  | .ok statement => do
    let result ← send statement
    pure
      { result
        builder := { b with lastSql := some statement.sql }.reset
        events := [.executing b.statementType statement.params.length statement.sql] }

def fetchAll [Monad m] (executor : Executor m ρ) (b : Builder) : m (Outcome (List ρ)) :=
  b.run executor.style executor.query

def execute [Monad m] (executor : Executor m ρ) (b : Builder) : m (Outcome Nat) :=
  b.run executor.style executor.execute

end Builder

end BoundSql
