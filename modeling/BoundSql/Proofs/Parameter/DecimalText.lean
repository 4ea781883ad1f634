import BoundSql.Parameter.Numeric
import Mathlib.Algebra.Order.Ring.Rat

/-!
# Which texts write a decimal number

The grammar of decimal numbers, as a relation between a text, the rational number it writes and the
number of digits after its point. `DecimalText.parse?` decides it:

    writesDecimal_iff :  WritesDecimal cs q scale ↔ `cs` is read, as `q`, with `scale` digits

so a text writes one number at most.
-/

namespace BoundSql.Parameter

open Number

/-- What may stand before the digits, and the factor it stands for. -/
inductive SignText : List Char → ℚ → Prop
  | absent : SignText [] 1
  | plus : SignText ['+'] 1
  | minus : SignText ['-'] (-1)

/-- What may stand after the digits of the integer part: nothing, or a point and more digits. -/
inductive FractionText : List Char → List Char → Prop
  | absent : FractionText [] []
  | point (digits : List Char) : FractionText ('.' :: digits) digits

/-- The text writes the number in decimal, with `scale` digits after the point. At least one digit
stands on one of the two sides of the point. -/
inductive WritesDecimal : List Char → ℚ → Nat → Prop
  | intro {sign whole tail fraction : List Char} {factor : ℚ}
      (signed : SignText sign factor) (pointed : FractionText tail fraction)
      (wholeDigits : isDigits whole = true) (fractionDigits : isDigits fraction = true)
      (nonempty : whole ++ fraction ≠ []) :
      WritesDecimal (sign ++ (whole ++ tail))
        (factor * (digitsValue whole + digitsValue fraction / 10 ^ fraction.length))
        fraction.length

/-- Digits after a sign write an integer. -/
theorem writesDecimal_of_isDigits {sign digits : List Char} {factor : ℚ}
    (signed : SignText sign factor) (hdigits : isDigits digits = true) (hne : digits ≠ []) :
    WritesDecimal (sign ++ digits) (factor * digitsValue digits) 0 := by
  have hzero : digitsValue [] = 0 := rfl
  have h := WritesDecimal.intro signed .absent hdigits rfl (by rwa [List.append_nil])
  rwa [List.append_nil, hzero, Nat.cast_zero, zero_div, add_zero] at h

namespace DecimalText

/-- The factor of the sign. -/
def factor (d : DecimalText) : ℚ := if d.negative then -1 else 1

/-- The number without its sign. -/
def magnitude (d : DecimalText) : ℚ :=
  digitsValue d.whole + digitsValue d.fraction / 10 ^ d.fraction.length

/-- The number that is written. -/
def value (d : DecimalText) : ℚ := d.factor * d.magnitude

/-! ### Where the parts end -/

theorem ne_point_of_isDigits {cs : List Char} (h : isDigits cs = true) :
    ∀ c ∈ cs, (c != '.') = true := by
  intro c hc
  rw [isDigits, List.all_eq_true] at h
  have hd := h c hc
  rw [bne_iff_ne]
  rintro rfl
  exact absurd hd (by decide)

/-- Digits are no sign, and neither is a point. -/
theorem splitSign_unsigned {whole tail fraction : List Char} (ht : FractionText tail fraction)
    (hw : isDigits whole = true) : splitSign (whole ++ tail) = (false, whole ++ tail) := by
  cases whole with
  | nil => cases ht <;> rfl
  | cons c cs =>
    have hc : c.isDigit = true := by
      rw [isDigits, List.all_cons, Bool.and_eq_true] at hw
      exact hw.1
    have hplus : c ≠ '+' := by
      rintro rfl
      exact absurd hc (by decide)
    have hminus : c ≠ '-' := by
      rintro rfl
      exact absurd hc (by decide)
    rw [List.cons_append, splitSign]
    · exact fun _ h => hminus (List.cons.inj h).1
    · exact fun _ h => hplus (List.cons.inj h).1

/-- Digits up to a point are found again, and so are the digits after it. -/
theorem split_at_point {whole tail fraction : List Char} (ht : FractionText tail fraction)
    (hw : isDigits whole = true) :
    (whole ++ tail).takeWhile (· != '.') = whole ∧
      ((whole ++ tail).dropWhile (· != '.')).drop 1 = fraction := by
  have hne := ne_point_of_isDigits hw
  rw [List.takeWhile_append_of_pos hne, List.dropWhile_append_of_pos hne]
  cases ht with
  | absent => simp
  | point => simp

/-- The tail of a text from its first point on, if it has one. -/
theorem fractionText_dropWhile (cs : List Char) :
    FractionText (cs.dropWhile (· != '.')) ((cs.dropWhile (· != '.')).drop 1) := by
  induction cs with
  | nil => exact .absent
  | cons c cs ih =>
    rw [List.dropWhile_cons]
    split
    · exact ih
    · next h =>
      have hc : c = '.' := by simpa using h
      subst hc
      exact .point cs

/-! ### Reading is deciding the grammar -/

/-- What is read: the parts on both sides of the first point, all digits and not both empty. -/
theorem parse?_eq_some_iff {cs : List Char} {d : DecimalText} :
    parse? cs = some d ↔
      (d.negative = (splitSign cs).1 ∧ d.whole = (splitSign cs).2.takeWhile (· != '.') ∧
        d.fraction = ((splitSign cs).2.dropWhile (· != '.')).drop 1) ∧
      isDigits d.whole = true ∧ isDigits d.fraction = true ∧ d.whole ++ d.fraction ≠ [] := by
  obtain ⟨negative, whole, fraction⟩ := d
  simp only [parse?, Option.ite_none_right_eq_some, Option.some.injEq, mk.injEq, Bool.and_eq_true,
    Bool.not_eq_true', List.isEmpty_eq_false_iff]
  constructor
  · rintro ⟨⟨⟨hw, hf⟩, hne⟩, rfl, rfl, rfl⟩
    exact ⟨⟨rfl, rfl, rfl⟩, hw, hf, hne⟩
  · rintro ⟨⟨rfl, rfl, rfl⟩, hw, hf, hne⟩
    exact ⟨⟨⟨hw, hf⟩, hne⟩, rfl, rfl, rfl⟩

/-- Removing the sign leaves the text without a sign text. -/
theorem exists_signText (cs : List Char) :
    ∃ sign, cs = sign ++ (splitSign cs).2 ∧
      SignText sign (if (splitSign cs).1 then -1 else 1) := by
  unfold splitSign
  split
  · exact ⟨['-'], rfl, .minus⟩
  · exact ⟨['+'], rfl, .plus⟩
  · exact ⟨[], rfl, .absent⟩

theorem isDigits_of_parse? {cs : List Char} {d : DecimalText} (h : parse? cs = some d) :
    isDigits d.whole = true ∧ isDigits d.fraction = true := by
  obtain ⟨-, hw, hf, -⟩ := parse?_eq_some_iff.mp h
  exact ⟨hw, hf⟩

theorem writesDecimal_of_parse? {cs : List Char} {d : DecimalText} (h : parse? cs = some d) :
    WritesDecimal cs d.value d.fraction.length := by
  obtain ⟨⟨hneg, hwhole, hfraction⟩, hw, hf, hne⟩ := parse?_eq_some_iff.mp h
  obtain ⟨sign, hcs, hsign⟩ := exists_signText cs
  -- the parts that were read, put together again, are the text
  have htail := fractionText_dropWhile (splitSign cs).2
  rw [← hfraction] at htail
  have hrest := List.takeWhile_append_dropWhile (p := (· != '.')) (l := (splitSign cs).2)
  rw [← hwhole] at hrest
  rw [← hneg] at hsign
  have hwrites := WritesDecimal.intro hsign htail hw hf hne
  rw [hrest, ← hcs] at hwrites
  exact hwrites

theorem parse?_of_writesDecimal {cs : List Char} {q : ℚ} {scale : Nat}
    (h : WritesDecimal cs q scale) :
    ∃ d, parse? cs = some d ∧ d.value = q ∧ d.fraction.length = scale := by
  cases h with
  | @intro sign whole tail fraction factor signed pointed wholeDigits fractionDigits nonempty =>
    -- whatever the sign, it is split off the digits and the point
    have hsplit : ∃ negative, splitSign (sign ++ (whole ++ tail)) = (negative, whole ++ tail) ∧
        factor = if negative then -1 else 1 := by
      cases signed with
      | absent =>
        rw [List.nil_append]
        exact ⟨false, splitSign_unsigned pointed wholeDigits, rfl⟩
      | plus => exact ⟨false, rfl, rfl⟩
      | minus => exact ⟨true, rfl, rfl⟩
    obtain ⟨negative, hsign, rfl⟩ := hsplit
    obtain ⟨hwhole, hfraction⟩ := split_at_point pointed wholeDigits
    refine ⟨⟨negative, whole, fraction⟩, ?_, rfl, rfl⟩
    rw [parse?_eq_some_iff, hsign]
    exact ⟨⟨rfl, hwhole.symm, hfraction.symm⟩, wholeDigits, fractionDigits, nonempty⟩

end DecimalText

/-- A text writes a number exactly if it is read as that number. -/
theorem writesDecimal_iff {cs : List Char} {q : ℚ} {scale : Nat} :
    WritesDecimal cs q scale ↔
      ∃ d, DecimalText.parse? cs = some d ∧ d.value = q ∧ d.fraction.length = scale := by
  constructor
  · exact DecimalText.parse?_of_writesDecimal
  · rintro ⟨d, h, rfl, rfl⟩
    exact DecimalText.writesDecimal_of_parse? h

/-- What a text writes, once it is read. -/
theorem writesDecimal_iff_of_parse? {cs : List Char} {d : DecimalText}
    (h : DecimalText.parse? cs = some d) (q : ℚ) (scale : Nat) :
    WritesDecimal cs q scale ↔ q = d.value ∧ scale = d.fraction.length := by
  rw [writesDecimal_iff]
  constructor
  · rintro ⟨e, he, rfl, rfl⟩
    obtain rfl : d = e := Option.some.inj (h.symm.trans he)
    exact ⟨rfl, rfl⟩
  · rintro ⟨rfl, rfl⟩
    exact ⟨d, h, rfl, rfl⟩

end BoundSql.Parameter
