import BoundSql.Config
import BoundSql.Fragment.Basic

/-!
# Rendering fragments

A fragment is rendered to text and the parameters that belong to its placeholders. In literal mode
there are no parameters; a placeholder that the caller wrote is always `?` and takes none.
-/

namespace BoundSql

structure Rendered where
  sql : String
  params : List Scalar
  deriving DecidableEq

namespace Fragment

/-- Render parts of which `bound` scalars stand to the left. -/
def renderParts (config : Config) : Nat → List Part → Rendered
  | _, [] => ⟨"", []⟩
  | bound, .raw text :: ps =>
    let rest := renderParts config bound ps
    ⟨text ++ rest.sql, rest.params⟩
  | bound, .placeholder :: ps =>
    let rest := renderParts config bound ps
    ⟨"?" ++ rest.sql, rest.params⟩
  | bound, .bind value :: ps =>
    let rest := renderParts config (bound + 1) ps
    match config.render with
    | .literal => ⟨value.literal config.escapeLiterals ++ rest.sql, rest.params⟩
    | .parameterized =>
      ⟨config.placeholder.placeholder (bound + 1) ++ rest.sql, value :: rest.params⟩

/-- The text and the parameters of a fragment. -/
def render (config : Config) (a : Fragment) : Rendered := renderParts config 0 a.parts

/-- The fragment with every scalar inlined, unescaped. -/
def literalText (a : Fragment) : String := (a.render {}).sql

end Fragment

end BoundSql
