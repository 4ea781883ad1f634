import BoundSql.Fragment.Lemmas

/-!
# Fragments symbol by symbol

Which raw texts of a fragment are one part and which are two does not matter once the fragment is
rendered. Its *symbols* forget the division: every character of raw text, every bound scalar and
every placeholder is one symbol. In this view concatenation is concatenation of lists, without a
seam, and what is rendered is the rendering of one symbol after the other.

    symbols_append       :  (a ++ b).symbols = a.symbols ++ b.symbols
    toList_literal_render :  literal text is `a.symbols.flatMap (Symbol.literal escape)`
-/

namespace BoundSql

/-- A piece of a fragment that cannot be divided. -/
inductive Symbol where
  | char (c : Char)
  | bind (value : Scalar)
  | placeholder
  deriving DecidableEq

namespace Symbol

/-- The characters of a text. -/
def ofText (s : String) : List Symbol := s.toList.map .char

/-- The scalar of a bound symbol. -/
def bound? : Symbol → Option Scalar
  | .bind value => some value
  | .char _ | .placeholder => none

/-- What is written for a symbol when scalars are inlined. -/
def literal (escape : Bool) : Symbol → List Char
  | .char c => [c]
  | .bind value => (value.literal escape).toList
  | .placeholder => ['?']

end Symbol

/-- The symbols of a part. -/
def Part.symbols : Part → List Symbol
  | .raw text => Symbol.ofText text
  | .bind value => [.bind value]
  | .placeholder => [.placeholder]

namespace Fragment

/-- The symbols of a fragment, from left to right. -/
def symbols (a : Fragment) : List Symbol := a.parts.flatMap Part.symbols

/-! ### Symbols of what is constructed -/

@[simp] theorem symbols_empty : empty.symbols = [] := rfl

@[simp] theorem symbols_bind (v : Scalar) : (bind v).symbols = [.bind v] := rfl

@[simp] theorem symbols_placeholder : placeholder.symbols = [.placeholder] := rfl

@[simp] theorem symbols_raw (s : String) : (raw s).symbols = Symbol.ofText s := by
  unfold raw
  split
  · next h =>
    have hs : s = "" := String.isEmpty_iff.mp h
    subst hs
    rfl
  · simp [symbols, Part.symbols]

/-- Gluing parts does not move, add or drop a symbol. -/
theorem flatMap_symbols_glue (ps qs : List Part) :
    (glue ps qs).flatMap Part.symbols = ps.flatMap Part.symbols ++ qs.flatMap Part.symbols := by
  fun_induction glue ps qs with
  | case1 qs => rfl
  | case2 s t qs => simp [Part.symbols, Symbol.ofText]
  | case3 p ps qs hp ih => simp [ih]

@[simp] theorem symbols_append (a b : Fragment) : (a ++ b).symbols = a.symbols ++ b.symbols :=
  flatMap_symbols_glue a.parts b.parts

/-! ### Views of a fragment, read off its symbols -/

theorem binds_eq_filterMap_symbols (a : Fragment) : a.binds = a.symbols.filterMap Symbol.bound? := by
  obtain ⟨ps⟩ := a
  simp only [binds, symbols]
  induction ps with
  | nil => rfl
  | cons p ps ih =>
    cases p <;>
      simp [Part.symbols, Symbol.ofText, Symbol.bound?, Function.comp_def, List.filterMap_cons, ih]

/-- Literal text is written symbol by symbol, wherever the fragment stands. -/
theorem toList_literal_renderParts {config : Config} (hc : config.render = .literal) (n : Nat)
    (ps : List Part) :
    (renderParts config n ps).sql.toList =
      (ps.flatMap Part.symbols).flatMap (Symbol.literal config.escapeLiterals) := by
  induction ps generalizing n with
  | nil => rfl
  | cons p ps ih =>
    cases p with
    | raw s =>
      have hs : (Symbol.ofText s).flatMap (Symbol.literal config.escapeLiterals) = s.toList := by
        simp [Symbol.ofText, Symbol.literal, List.flatMap_map]
      simp [renderParts, Part.symbols, ih, hs]
    | bind v => simp [renderParts, hc, Part.symbols, Symbol.literal, ih]
    | placeholder => simp [renderParts, Part.symbols, Symbol.literal, ih]

theorem toList_literal_render {config : Config} (hc : config.render = .literal) (a : Fragment) :
    (a.render config).sql.toList = a.symbols.flatMap (Symbol.literal config.escapeLiterals) :=
  toList_literal_renderParts hc 0 a.parts

end Fragment

end BoundSql
