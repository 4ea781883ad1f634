import BoundSql.Predicate.Operator

/-!
# Errors

Why a call on a statement builder fails: a descriptor that cannot be compiled, a statement that
cannot be handed over, or a failure of the executor itself. Each cause carries what its message
quotes, so no message is read back to find out what went wrong.

An executor answers with its own failures, or with those of the driver through which it talks to the
database.
-/

namespace BoundSql

inductive ArgumentFault where
  /-- The connector of a predicate is neither `AND` nor `OR`. -/
  | connector (given : String)
  /-- A union mode is no known word. -/
  | unionMode (given : String)
  /-- What is to be dropped is no known kind of object. -/
  | dropKind (given : String)
  /-- A range operator has something else than a list of two values. -/
  | notTwoValues (operator : Operator) (expression : String)
  /-- An operator that needs a value has the empty list. -/
  | valueMissing (operator : Operator) (expression : String)
  /-- Nothing was written that could be executed. -/
  | noStatement
  /-- Placeholders of the caller cannot be mixed with numbered ones. -/
  | unboundPlaceholders (count : Nat)
  /-- Any other reason, in its own words. -/
  | other (reason : String)
  deriving DecidableEq

/-- The wording of a fault; what the caller gave is quoted as it was given. -/
def ArgumentFault.message : ArgumentFault → String
  | .connector given => "predicate connector must be 'AND' or 'OR', got '" ++ given ++ "'"
  | .unionMode given => "union mode must be a boolean or 'all', got '" ++ given ++ "'"
  | .dropKind given => "cannot DROP '" ++ given ++ "': expected database, table or view"
  | .notTwoValues op expression =>
    op.text ++ " on '" ++ expression ++ "' expects a list of exactly two values"
  | .valueMissing op expression => op.text ++ " on '" ++ expression ++ "' needs a value"
  | .noStatement => "no statement to execute"
  | .unboundPlaceholders count =>
    "statement has " ++ Nat.repr count ++
      " '?' placeholder(s) without values; numbered executors need every value bound"
  | .other reason => reason

/-- An error of a database driver. It is handed on as it is; all that is known of it is how it is
displayed. -/
structure DriverError where
  display : String
  deriving DecidableEq

inductive SqlError where
  | invalidArgument (fault : ArgumentFault)
  /-- What the driver reported. -/
  | query (error : DriverError)
  /-- What any other executor reported. -/
  | executor (reason : String)
  deriving DecidableEq

namespace SqlError

def message : SqlError → String
  | .invalidArgument fault => "Invalid argument: " ++ fault.message
  | .query error => "Query error: " ++ error.display
  | .executor reason => "Executor error: " ++ reason

/-- The caller's argument is to blame. -/
def isInvalidArgument : SqlError → Bool
  | .invalidArgument _ => true
  | .query _ | .executor _ => false

end SqlError

end BoundSql
