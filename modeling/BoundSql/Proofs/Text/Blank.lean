import BoundSql.Text.Blank
import Mathlib.Data.List.TakeWhile
import Mathlib.Data.List.Induction

/-!
# What trimming leaves

Nothing is left of a text of blanks, and everything of a text without blanks.
-/

namespace BoundSql.Text

theorem toList_trim (s : String) : (trim s).toList = trimChars s.toList := by
  rw [trim, String.toList_ofList]

/-- Only blanks trim to nothing. -/
theorem trimChars_eq_nil_iff (cs : List Char) :
    trimChars cs = [] ↔ ∀ c ∈ cs, isBlankChar c = true := by
  induction cs with
  | nil => simp [trimChars]
  | cons c cs ih =>
    by_cases h : isBlankChar c = true
    · have hc : trimChars (c :: cs) = trimChars cs := by
        simp [trimChars, h]
      simp [hc, ih, h]
    · simp [trimChars, h]

/-- A text is blank when nothing is left of it after trimming. -/
theorem isBlank_iff_trim_eq_empty (s : String) : isBlank s = true ↔ trim s = "" := by
  rw [isBlank, List.all_eq_true, ← trimChars_eq_nil_iff, trim, String.ofList_eq_empty_iff]

/-! ### Trimmed texts -/

/-- Neither the first nor the last character is a blank. -/
structure Trimmed (cs : List Char) : Prop where
  front : ∀ c ∈ cs.head?, isBlankChar c = false
  back : ∀ c ∈ cs.getLast?, isBlankChar c = false

theorem head?_dropWhile_isBlankChar (cs : List Char) :
    ∀ c ∈ (cs.dropWhile isBlankChar).head?, isBlankChar c = false := by
  intro c hc
  have h := List.head?_dropWhile_not isBlankChar cs
  rw [Option.mem_def.mp hc] at h
  exact h

theorem trimmed_trimChars (cs : List Char) : Trimmed (trimChars cs) where
  front := by
    intro c hc
    rw [trimChars, List.head?_reverse] at hc
    -- dropping blanks at the end leaves the first character where it is
    obtain ⟨dropped, hsplit⟩ :=
      List.dropWhile_suffix isBlankChar (l := (cs.dropWhile isBlankChar).reverse)
    have hlast := congrArg List.getLast? hsplit
    rw [List.getLast?_append, Option.mem_def.mp hc, List.getLast?_reverse] at hlast
    exact head?_dropWhile_isBlankChar cs c hlast.symm
  back := by
    rw [trimChars, List.getLast?_reverse]
    exact head?_dropWhile_isBlankChar _

theorem dropWhile_isBlankChar_eq_self {cs : List Char}
    (h : ∀ c ∈ cs.head?, isBlankChar c = false) : cs.dropWhile isBlankChar = cs := by
  cases cs with
  | nil => rfl
  | cons c cs => rw [List.dropWhile_cons_of_neg (by rw [h c rfl]; exact Bool.false_ne_true)]

theorem Trimmed.trimChars_eq {cs : List Char} (h : Trimmed cs) : trimChars cs = cs := by
  rw [trimChars, dropWhile_isBlankChar_eq_self h.front, dropWhile_isBlankChar_eq_self,
    List.reverse_reverse]
  rw [List.head?_reverse]
  exact h.back

theorem trimmed_of_not_blank {cs : List Char} (h : ∀ c ∈ cs, isBlankChar c = false) :
    Trimmed cs :=
  ⟨fun c hc => h c (List.mem_of_head? hc), fun c hc => h c (List.mem_of_getLast? hc)⟩

/-- Nothing is trimmed from a text without blanks. -/
theorem trimChars_eq_self {cs : List Char} (h : ∀ c ∈ cs, isBlankChar c = false) :
    trimChars cs = cs := (trimmed_of_not_blank h).trimChars_eq

/-- Trimming removes blanks at either end. -/
theorem exists_blanks_trimChars (cs : List Char) :
    ∃ front back, cs = front ++ trimChars cs ++ back ∧
      (∀ c ∈ front, isBlankChar c = true) ∧ ∀ c ∈ back, isBlankChar c = true := by
  have hfront := List.takeWhile_append_dropWhile (p := isBlankChar) (l := cs)
  have hback := congrArg List.reverse
    (List.takeWhile_append_dropWhile (p := isBlankChar) (l := (cs.dropWhile isBlankChar).reverse))
  rw [List.reverse_append, List.reverse_reverse] at hback
  refine ⟨cs.takeWhile isBlankChar,
    ((cs.dropWhile isBlankChar).reverse.takeWhile isBlankChar).reverse, ?_, ?_, ?_⟩
  · rw [trimChars, List.append_assoc, hback, hfront]
  · exact fun c hc => List.mem_takeWhile_imp hc
  · exact fun c hc => List.mem_takeWhile_imp (List.mem_reverse.mp hc)

/-- Whatever blanks are around a trimmed text, it is left. -/
theorem Trimmed.trimChars_blanks {front cs back : List Char} (h : Trimmed cs) (hne : cs ≠ [])
    (hfront : ∀ c ∈ front, isBlankChar c = true) (hback : ∀ c ∈ back, isBlankChar c = true) :
    trimChars (front ++ cs ++ back) = cs := by
  have hstart : ∀ c ∈ (cs ++ back).head?, isBlankChar c = false := by
    rw [List.head?_append, List.head?_eq_some_head hne, Option.some_or, ← List.head?_eq_some_head]
    exact h.front
  have hend : ∀ c ∈ cs.reverse.head?, isBlankChar c = false := by
    rw [List.head?_reverse]
    exact h.back
  rw [trimChars, List.append_assoc, List.dropWhile_append_of_pos hfront,
    dropWhile_isBlankChar_eq_self hstart, List.reverse_append,
    List.dropWhile_append_of_pos fun c hc => hback c (List.mem_reverse.mp hc),
    dropWhile_isBlankChar_eq_self hend, List.reverse_reverse]

/-- Characters may be replaced by others if no blank comes from a character that is none. -/
theorem Trimmed.flatMap {f : Char → List Char} (hne : ∀ c, f c ≠ [])
    (hf : ∀ c, isBlankChar c = false → ∀ d ∈ f c, isBlankChar d = false) {cs : List Char}
    (h : Trimmed cs) : Trimmed (cs.flatMap f) where
  front := by
    cases cs with
    | nil => simp
    | cons c cs =>
      intro d hd
      rw [List.flatMap_cons, List.head?_append, List.head?_eq_some_head (hne c),
        Option.some_or] at hd
      cases hd
      exact hf c (h.front c rfl) _ (List.head_mem (hne c))
  back := by
    cases cs using List.reverseRecOn with
    | nil => simp
    | append_singleton cs c =>
      intro d hd
      rw [List.flatMap_append, List.flatMap_singleton, List.getLast?_append,
        List.getLast?_eq_some_getLast (hne c), Option.some_or] at hd
      cases hd
      exact hf c (h.back c (by simp)) _ (List.getLast_mem (hne c))

/-! ### Digits -/

/-- Digits are not blank. -/
theorem isBlankChar_of_isDigit {c : Char} (h : c.isDigit = true) : isBlankChar c = false := by
  simp only [Char.isDigit, Bool.and_eq_true, decide_eq_true_eq] at h
  have hlow : 48 ≤ c.toNat := h.1
  have hhigh : c.toNat ≤ 57 := h.2
  simp only [isBlankChar, Bool.or_eq_false_iff, Bool.and_eq_false_iff, decide_eq_false_iff_not,
    beq_eq_false_iff_ne]
  omega

end BoundSql.Text
