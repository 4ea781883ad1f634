import BoundSql.Scalar

/-!
# Fragments of a statement

A fragment is raw text interleaved with bound scalars and with placeholders that the caller wrote.
Whether a bound scalar ends up as literal text or as a placeholder is decided only when the fragment
is rendered.

Fragments are concatenated with `++`, which joins raw text that meets at the seam. Every fragment
built by the functions of this module is in *canonical form*: no part is empty raw text, and no two
raw parts are adjacent.
-/

namespace BoundSql

/-- A piece of a fragment. -/
inductive Part where
  /-- Text that is written as it is. -/
  | raw (text : String)
  /-- A slot for a value of the compiler. -/
  | bind (value : Scalar)
  /-- A `?` written by the caller, whose value is supplied outside the compiler. -/
  | placeholder
  deriving DecidableEq

/-- Parts of one kind with equal text, or with scalars that are equal as values. -/
def Part.valueEq : Part → Part → Bool
  | .raw s, .raw t => s == t
  | .bind x, .bind y => x.valueEq y
  | .placeholder, .placeholder => true
  | _, _ => false

structure Fragment where
  parts : List Part
  deriving DecidableEq

namespace Fragment

/-! ### Construction -/

def empty : Fragment := ⟨[]⟩

def raw (text : String) : Fragment := if text.isEmpty then empty else ⟨[.raw text]⟩

def bind (value : Scalar) : Fragment := ⟨[.bind value]⟩

def placeholder : Fragment := ⟨[.placeholder]⟩

/-- Concatenate parts; raw text at the seam becomes one part. -/
def glue : List Part → List Part → List Part
  | [], qs => qs
  | [.raw s], .raw t :: qs => .raw (s ++ t) :: qs
  | p :: ps, qs => p :: glue ps qs

def append (a b : Fragment) : Fragment := ⟨glue a.parts b.parts⟩

instance : Append Fragment := ⟨append⟩

instance : EmptyCollection Fragment := ⟨empty⟩

def parenthesized (a : Fragment) : Fragment := raw "(" ++ a ++ raw ")"

/-- Concatenate fragments with raw text between each two. -/
def join (separator : String) : List Fragment → Fragment
  | [] => empty
  | [a] => a
  | a :: b :: as => a ++ raw separator ++ join separator (b :: as)

/-! ### Views -/

/-- Renders to nothing. -/
def isEmpty (a : Fragment) : Bool :=
  a.parts.all fun
    | .raw text => text.isEmpty
    | .bind _ | .placeholder => false

/-- The bound scalars, from left to right. -/
def binds (a : Fragment) : List Scalar :=
  a.parts.filterMap fun
    | .bind value => some value
    | .raw _ | .placeholder => none

def bindCount (a : Fragment) : Nat := a.binds.length

/-- How many placeholders the caller wrote. -/
def placeholderCount (a : Fragment) : Nat := a.parts.count .placeholder

/-- Equal part by part, with scalars compared as values. -/
def valueEq (a b : Fragment) : Bool :=
  a.parts.length == b.parts.length && (a.parts.zip b.parts).all fun (p, q) => p.valueEq q

end Fragment

end BoundSql
