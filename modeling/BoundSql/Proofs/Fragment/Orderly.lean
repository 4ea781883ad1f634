import BoundSql.Proofs.Fragment.Symbols
import Mathlib.Data.List.Chain

/-!
# Orderly fragments

A *text rule* says which characters raw text may hold and which symbols may follow a bound scalar. A
fragment is *orderly* if it keeps the rule, and *appendable* if it keeps it even when a bound scalar
stands in front of it. Both are closed under the ways in which fragments are put together, so that a
rule that callers keep in the texts they supply is kept by whatever is compiled from them.

What compilation itself writes consists of capital letters, digits and a few signs, and behind a
bound scalar it never begins with a digit; a rule has to admit that much.
-/

namespace BoundSql

/-- The characters of the texts that compilation itself writes. -/
def isOwnChar (c : Char) : Bool :=
  c.isUpper || c.isDigit || " ,()*=!<>".toList.contains c

/-- A text of such characters that begins with no digit, and with something. -/
def isOwnLead (s : String) : Bool :=
  s.toList.all isOwnChar && s.toList.head?.any fun c => !c.isDigit

/-- Which characters raw text may hold, and what may follow a bound scalar. -/
structure TextRule where
  allowed : Char → Prop
  follows : Symbol → Prop
  allowed_own : ∀ c, isOwnChar c = true → allowed c
  follows_own : ∀ c, isOwnChar c = true → c.isDigit = false → follows (.char c)

namespace TextRule

/-- The text holds allowed characters only. -/
def Accepts (r : TextRule) (s : String) : Prop := ∀ c ∈ s.toList, r.allowed c

/-- What the text begins with may follow a bound scalar. -/
def AcceptsHead (r : TextRule) (s : String) : Prop := ∀ c ∈ s.toList.head?, r.follows (.char c)

/-- The second symbol may stand behind the first. -/
def Seam (r : TextRule) (x y : Symbol) : Prop := x.bound?.isSome → r.follows y

variable {r : TextRule}

/-! ### Accepted texts -/

theorem accepts_own {s : String} (h : s.toList.all isOwnChar = true) : r.Accepts s :=
  fun c hc => r.allowed_own c (List.all_eq_true.mp h c hc)

theorem accepts_ownLead {s : String} (h : isOwnLead s = true) : r.Accepts s :=
  accepts_own (Bool.and_eq_true_iff.mp h).1

theorem acceptsHead_ownLead {s : String} (h : isOwnLead s = true) : r.AcceptsHead s := by
  intro c hc
  obtain ⟨hall, hhead⟩ := Bool.and_eq_true_iff.mp h
  rw [show s.toList.head? = some c from hc, Option.any_some, Bool.not_eq_true'] at hhead
  exact r.follows_own c (List.all_eq_true.mp hall c (List.mem_of_head? hc)) hhead

theorem accepts_empty : r.Accepts "" := accepts_own rfl

theorem Accepts.append {s t : String} (hs : r.Accepts s) (ht : r.Accepts t) :
    r.Accepts (s ++ t) := by
  intro c hc
  rw [String.toList_append] at hc
  exact (List.mem_append.mp hc).elim (hs c) (ht c)

theorem AcceptsHead.append {s t : String} (hs : r.AcceptsHead s) (hne : s ≠ "") :
    r.AcceptsHead (s ++ t) := by
  intro c hc
  have hl : s.toList ≠ [] := by simpa using hne
  rw [String.toList_append, List.head?_append_of_ne_nil _ hl] at hc
  exact hs c hc

theorem Accepts.intercalate {sep : String} (hsep : r.Accepts sep) :
    ∀ {ss : List String}, (∀ s ∈ ss, r.Accepts s) → r.Accepts (String.intercalate sep ss)
  | [], _ => by simpa using accepts_empty
  | [s], h => by simpa using h s
  | s :: t :: ss, h => by
    rw [String.intercalate_cons_cons]
    have hrest : r.Accepts (String.intercalate sep (t :: ss)) :=
      Accepts.intercalate hsep fun u hu => h u (List.mem_cons_of_mem s hu)
    exact ((h s List.mem_cons_self).append hsep).append hrest

end TextRule

namespace Fragment

/-- The fragment keeps the rule. -/
structure Orderly (r : TextRule) (a : Fragment) : Prop where
  allowed : ∀ c, .char c ∈ a.symbols → r.allowed c
  spaced : a.symbols.IsChain r.Seam

/-- The fragment keeps the rule even behind a bound scalar. -/
structure Appendable (r : TextRule) (a : Fragment) : Prop extends Orderly r a where
  head : ∀ x ∈ a.symbols.head?, r.follows x

variable {r : TextRule} {a b : Fragment}

/-! ### Single fragments -/

theorem orderly_bind (v : Scalar) : Orderly r (bind v) :=
  ⟨fun _ h => by simp at h, .singleton _⟩

theorem orderly_placeholder : Orderly r placeholder :=
  ⟨fun _ h => by simp at h, .singleton _⟩

theorem appendable_empty : Appendable r empty :=
  ⟨⟨fun _ h => by simp at h, .nil⟩, fun _ h => by simp at h⟩

/-- No character is a bound scalar, so anything may stand behind it. -/
theorem seam_char (c : Char) (y : Symbol) : r.Seam (.char c) y :=
  fun h => by simp [Symbol.bound?] at h

theorem orderly_raw {s : String} (h : r.Accepts s) : Orderly r (raw s) := by
  refine ⟨fun c hc => ?_, ?_⟩
  · rw [symbols_raw, Symbol.ofText, List.mem_map] at hc
    obtain ⟨d, hd, hdc⟩ := hc
    cases hdc
    exact h c hd
  · rw [symbols_raw, Symbol.ofText, List.isChain_map]
    exact (List.pairwise_of_forall fun c d => seam_char c (.char d)).isChain

theorem appendable_raw {s : String} (h : r.Accepts s) (hh : r.AcceptsHead s) :
    Appendable r (raw s) := by
  refine ⟨orderly_raw h, fun x hx => ?_⟩
  rw [symbols_raw, Symbol.ofText, List.head?_map, Option.mem_def, Option.map_eq_some_iff] at hx
  obtain ⟨c, hc, rfl⟩ := hx
  exact hh c hc

/-! ### Concatenation -/

theorem Orderly.append (ha : Orderly r a) (hb : Appendable r b) : Orderly r (a ++ b) := by
  refine ⟨fun c hc => ?_, ?_⟩
  · rw [symbols_append, List.mem_append] at hc
    exact hc.elim (ha.allowed c) (hb.allowed c)
  · -- the only new neighbours are those at the seam
    rw [symbols_append, List.isChain_append]
    exact ⟨ha.spaced, hb.spaced, fun _ _ y hy _ => hb.head y hy⟩

/-- Raw text in front separates whatever follows from what came before. -/
theorem Orderly.raw_append {s : String} (h : r.Accepts s) (hb : Orderly r b) :
    Orderly r (raw s ++ b) := by
  have hs : Orderly r (raw s) := orderly_raw h
  refine ⟨fun c hc => ?_, ?_⟩
  · rw [symbols_append, List.mem_append] at hc
    exact hc.elim (hs.allowed c) (hb.allowed c)
  · rw [symbols_append, List.isChain_append]
    refine ⟨hs.spaced, hb.spaced, fun x hx y _ => ?_⟩
    -- raw text ends with a character; if it is empty, there is no seam
    rw [symbols_raw, Symbol.ofText] at hx
    obtain ⟨c, -, rfl⟩ := List.mem_map.mp (List.mem_of_mem_getLast? hx)
    exact seam_char c y

theorem Appendable.append (ha : Appendable r a) (hb : Appendable r b) : Appendable r (a ++ b) := by
  refine ⟨ha.toOrderly.append hb, fun x hx => ?_⟩
  rw [symbols_append, List.head?_append] at hx
  -- an empty fragment leaves the head to the second one
  cases h : a.symbols.head? with
  | none => exact hb.head x (by simpa [h] using hx)
  | some y => exact ha.head x (by simpa [h] using hx)

/-- Raw text with something in it decides what the whole begins with. -/
theorem Orderly.appendable_raw_append {s : String} (h : r.Accepts s) (hh : r.AcceptsHead s)
    (hne : s ≠ "") (hb : Orderly r b) : Appendable r (raw s ++ b) := by
  refine ⟨hb.raw_append h, fun x hx => ?_⟩
  have hl : (raw s).symbols ≠ [] := by simpa [Symbol.ofText] using hne
  rw [symbols_append, List.head?_append_of_ne_nil _ hl] at hx
  exact (appendable_raw h hh).head x hx

theorem appendable_own {s : String} (h : isOwnLead s = true) : Appendable r (raw s) :=
  appendable_raw (TextRule.accepts_ownLead h) (TextRule.acceptsHead_ownLead h)

/-- What compilation itself writes in front, unless it is a digit, makes a fragment appendable. -/
theorem Orderly.own_append {s : String} (hb : Orderly r b) (h : isOwnLead s = true) :
    Appendable r (raw s ++ b) := by
  have hne : s ≠ "" := by
    rintro rfl
    simp [isOwnLead] at h
  exact hb.appendable_raw_append (TextRule.accepts_ownLead h) (TextRule.acceptsHead_ownLead h) hne

/-! ### Parentheses and lists -/

theorem Orderly.parenthesized (ha : Orderly r a) : Appendable r a.parenthesized := by
  rw [Fragment.parenthesized, append_assoc]
  exact (ha.append (appendable_own (by decide))).own_append (by decide)

/-- A separator that compilation writes itself keeps the joined fragments apart. -/
theorem orderly_join {sep : String} (hsep : isOwnLead sep = true) :
    ∀ {as : List Fragment}, (∀ a ∈ as, Orderly r a) → Orderly r (join sep as)
  | [], _ => appendable_empty.toOrderly
  | [a], h => h a List.mem_cons_self
  | a :: b :: as, h => by
    have hrest : Orderly r (join sep (b :: as)) :=
      orderly_join hsep fun c hc => h c (List.mem_cons_of_mem a hc)
    rw [join, append_assoc]
    exact (h a List.mem_cons_self).append (hrest.own_append hsep)

/-- Fragments that are all appendable need nothing between them. -/
theorem appendable_join_empty :
    ∀ {as : List Fragment}, (∀ a ∈ as, Appendable r a) → Appendable r (join "" as)
  | [], _ => appendable_empty
  | [a], h => h a List.mem_cons_self
  | a :: b :: as, h => by
    rw [join, raw_empty, append_empty]
    exact (h a List.mem_cons_self).append
      (appendable_join_empty fun c hc => h c (List.mem_cons_of_mem a hc))

end Fragment

end BoundSql
