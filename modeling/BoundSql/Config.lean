/-!
# Rendering and quoting options

How bound scalars are written into the final text, and whether values are quoted at all.
-/

namespace BoundSql

inductive RenderMode where
  /-- Inlined as literal text. -/
  | literal
  /-- As placeholders, with the scalars handed over as a parameter list. -/
  | parameterized
  deriving DecidableEq

inductive PlaceholderStyle where
  /-- `?` for every parameter. -/
  | question
  /-- `$1`, `$2`, … -/
  | numbered
  deriving DecidableEq

/-- The text of the placeholder for the `index`-th parameter, counted from one. -/
def PlaceholderStyle.placeholder : PlaceholderStyle → Nat → String
  | .question, _ => "?"
  | .numbered, index => "$" ++ Nat.repr index

/-- The options of a statement builder. By default values are quoted, and inlined unescaped. -/
structure Config where
  /-- Turn scalar values into bind slots; otherwise they are written as plain text. -/
  autoQuoteValues : Bool := true
  render : RenderMode := .literal
  placeholder : PlaceholderStyle := .question
  /-- Write a single quote inside an inlined text twice. -/
  escapeLiterals : Bool := false
  deriving DecidableEq

/-- Parameterized output with placeholders of the given style. -/
def Config.parameterized (style : PlaceholderStyle) : Config :=
  { render := .parameterized, placeholder := style }

end BoundSql
