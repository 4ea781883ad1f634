import BoundSql.Error
import BoundSql.Value.Basic

/-!
# Predicates

A predicate is an expression, an operator and a value, and the connector that ties it to the
predicate before it.
-/

namespace BoundSql

/-- How a predicate is tied to the one before it. -/
inductive Connector where
  | and
  | or
  deriving DecidableEq

namespace Connector

def text : Connector → String
  | .and => "AND"
  | .or => "OR"

/-- Read a connector, without regard to case and to blanks around it. -/
def parse (s : String) : Except SqlError Connector :=
  match Text.upper (Text.trim s) with
  | "AND" => .ok .and
  | "OR" => .ok .or
  | _ => .error (.invalidArgument (.connector s))

end Connector

/-- A predicate of a `WHERE` or `HAVING` clause. -/
structure Predicate where
  expression : String
  value : Value
  operator : Operator
  /-- The connector as given; it is read only where the predicate follows another one. -/
  connector : Option String

namespace Predicate

/-- `expression = value`. -/
def ofValue (expression : String) (value : Value) : Predicate := ⟨expression, value, .eq, none⟩

def withOperator (operator : Operator) (p : Predicate) : Predicate := { p with operator }

def withConnector (connector : String) (p : Predicate) : Predicate :=
  { p with connector := some connector }

/-- `expression IS NULL`. -/
def isNull (expression : String) : Predicate :=
  (ofValue expression .missing).withOperator .isNull

/-- `expression IS NOT NULL`. -/
def isNotNull (expression : String) : Predicate :=
  (ofValue expression .missing).withOperator .isNotNull

/-- `expression IN (values)`. -/
def inList (expression : String) (values : List Value) : Predicate :=
  (ofValue expression (.list values)).withOperator .inList

/-- `expression NOT IN (values)`. -/
def notInList (expression : String) (values : List Value) : Predicate :=
  (ofValue expression (.list values)).withOperator .notInList

/-- `expression BETWEEN low AND high`. -/
def between (expression : String) (low high : Value) : Predicate :=
  (ofValue expression (.list [low, high])).withOperator .between

/-- `expression NOT BETWEEN low AND high`. -/
def notBetween (expression : String) (low high : Value) : Predicate :=
  (between expression low high).withOperator .notBetween

/-- `expression LIKE pattern`. -/
def like (expression : String) (pattern : Value) : Predicate :=
  (ofValue expression pattern).withOperator .like

/-- The connector that is meant: `AND` unless a text that is not blank is given. -/
def resolvedConnector (p : Predicate) : Except SqlError Connector :=
  match p.connector with
  | none => .ok .and
  | some given => if Text.isBlank given then .ok .and else Connector.parse given

end Predicate

end BoundSql
