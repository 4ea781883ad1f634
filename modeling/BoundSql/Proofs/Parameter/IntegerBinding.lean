import BoundSql.Parameter.Column
import BoundSql.Proofs.Number.ExactValue
import BoundSql.Proofs.Number.IntegerText
import BoundSql.Proofs.Parameter.BigEndian
import BoundSql.Proofs.Text.Blank

/-!
# Binding scalars to integer columns

Three kinds of scalars denote integers, and three types of columns take them. Each kind is read into
an integer of 64 bits, and each type narrows that integer to its own width. What is bound in the end
is the integer that the scalar denotes, and nothing else: no text is cut short, no floating-point
number is rounded, and nothing wraps around or stops at the end of a range.
-/

namespace BoundSql

open Number Parameter

/-- How many bytes an integer column has. -/
def ColumnType.integerWidth? : ColumnType → Option Nat
  | .int2 => some 2
  | .int4 => some 4
  | .int8 => some 8
  | _ => none

namespace Scalar

/-- The scalar denotes the integer. A text may have blanks around it, a floating-point number counts
with its exact value. -/
inductive Denotes : Scalar → Int → Prop
  | int (n : Int64) : Denotes (.int n) n.toInt
  | text {s : String} {front digits back : List Char} {n : Int}
      (split : s.toList = front ++ digits ++ back)
      (blankFront : ∀ c ∈ front, Text.isBlankChar c = true)
      (blankBack : ∀ c ∈ back, Text.isBlankChar c = true)
      (writes : WritesInteger digits n) : Denotes (.text s) n
  | float {x : Binary64} {n : Int} (value : ieeeValue? x.word.toNat = some (n : ℚ)) :
      Denotes (.float x) n

/-! ### Texts -/

/-- Digits and a sign are no blanks. -/
theorem not_blank_of_writesInteger {cs : List Char} {n : Int} (h : WritesInteger cs n) :
    cs ≠ [] ∧ ∀ c ∈ cs, Text.isBlankChar c = false := by
  have hdigits {ds : List Char} (hds : isDigits ds = true) :
      ∀ c ∈ ds, Text.isBlankChar c = false :=
    fun c hc => Text.isBlankChar_of_isDigit (List.all_eq_true.mp hds c hc)
  cases h with
  | unsigned hds hne => exact ⟨hne, hdigits hds⟩
  | plus hds => exact ⟨List.cons_ne_nil _ _, List.forall_mem_cons.mpr ⟨by decide, hdigits hds⟩⟩
  | minus hds => exact ⟨List.cons_ne_nil _ _, List.forall_mem_cons.mpr ⟨by decide, hdigits hds⟩⟩

/-- What a text denotes is left when the blanks around it are removed. -/
theorem denotes_text_iff {s : String} {n : Int} :
    Denotes (.text s) n ↔ WritesInteger (Text.trimChars s.toList) n := by
  constructor
  · intro h
    cases h with
    | text split blankFront blankBack writes =>
      obtain ⟨hne, hblank⟩ := not_blank_of_writesInteger writes
      rwa [split, (Text.trimmed_of_not_blank hblank).trimChars_blanks hne blankFront blankBack]
  · intro h
    obtain ⟨front, back, split, blankFront, blankBack⟩ := Text.exists_blanks_trimChars s.toList
    exact .text split blankFront blankBack h

/-! ### Reading -/

/-- The integer that a scalar denotes is read, if it has 64 bits. -/
theorem run_toInteger_eq_ok {s : Scalar} {n : Int} {buffer buffer' : Array UInt8} :
    s.toInteger.run buffer = .ok n buffer' ↔
      s.Denotes n ∧ (-2 ^ 63 ≤ n ∧ n < 2 ^ 63) ∧ buffer' = buffer := by
  cases s with
  | int m =>
    have hlow := m.le_toInt
    have hhigh := m.toInt_lt
    constructor
    · rintro ⟨⟩
      exact ⟨.int m, ⟨by omega, by omega⟩, rfl⟩
    · rintro ⟨⟨⟩, -, rfl⟩
      rfl
  | float x =>
    have hdenotes : Denotes (.float x) n ↔ x.toInteger? = some n := by
      rw [Binary64.toInteger?_eq_some_iff]
      constructor
      · rintro ⟨⟩
        assumption
      · exact .float
    have hpow : (pow2 63 : Int) = 2 ^ 63 := rfl
    rw [hdenotes]
    cases hx : x.toInteger? with
    | none =>
      simp only [toInteger, hx]
      constructor
      · rintro ⟨⟩
      · rintro ⟨⟨⟩, -⟩
    | some m =>
      simp only [toInteger, hx, hpow, Option.some.injEq]
      by_cases hm : -2 ^ 63 ≤ m ∧ m < 2 ^ 63
      · rw [if_pos hm]
        constructor
        · rintro ⟨⟩
          exact ⟨rfl, hm, rfl⟩
        · rintro ⟨rfl, -, rfl⟩
          rfl
      · rw [if_neg hm]
        constructor
        · rintro ⟨⟩
        · rintro ⟨rfl, hn, -⟩
          exact absurd hn hm
  | text s =>
    rw [toInteger, run_accept_eq_ok, readInt64_eq_ok_iff, denotes_text_iff, and_assoc]

/-! ### Writing -/

theorem run_signed_eq_ok {width : Nat} {n m : Int} {buffer buffer' : Array UInt8} :
    (signed width n).run buffer = .ok m buffer' ↔
      (-2 ^ (8 * width - 1) ≤ n ∧ n < 2 ^ (8 * width - 1)) ∧ m = n ∧ buffer' = buffer := by
  have hpow : (pow2 (8 * width - 1) : Int) = 2 ^ (8 * width - 1) := Nat.cast_pow 2 _
  rw [signed, run_inRange_eq_ok, hpow, Int.le_sub_one_iff]

/-- A width of 64 bits at most is a part of the range that was read. -/
theorem run_writeInteger_eq_ok {s : Scalar} {width : Nat} (hwidth : width ≤ 8)
    {buffer buffer' : Array UInt8} :
    (s.writeInteger width).run buffer = .ok () buffer' ↔
      ∃ n, s.Denotes n ∧ (-2 ^ (8 * width - 1) ≤ n ∧ n < 2 ^ (8 * width - 1)) ∧
        buffer' = buffer ++ bigEndian width n := by
  have hpow : (2 : Int) ^ (8 * width - 1) ≤ 2 ^ 63 := pow_le_pow_right₀ (by decide) (by omega)
  unfold writeInteger
  constructor
  · intro h
    obtain ⟨n, _, hread, h₁⟩ := run_bind_eq_ok.mp h
    obtain ⟨hdenotes, -, rfl⟩ := run_toInteger_eq_ok.mp hread
    obtain ⟨_, _, hcheck, h₂⟩ := run_bind_eq_ok.mp h₁
    obtain ⟨hrange, rfl, rfl⟩ := run_signed_eq_ok.mp hcheck
    cases h₂
    exact ⟨_, hdenotes, hrange, rfl⟩
  · rintro ⟨n, hdenotes, hrange, rfl⟩
    have hread : s.toInteger.run buffer = .ok n buffer :=
      run_toInteger_eq_ok.mpr ⟨hdenotes, ⟨by omega, by omega⟩, rfl⟩
    have hcheck : (signed width n).run buffer = .ok n buffer :=
      run_signed_eq_ok.mpr ⟨hrange, rfl, rfl⟩
    exact run_bind_eq_ok.mpr ⟨_, _, hread, run_bind_eq_ok.mpr ⟨_, _, hcheck, rfl⟩⟩

theorem bindTo_of_integerWidth? {type : ColumnType} {width : Nat}
    (h : type.integerWidth? = some width) (s : Scalar) :
    s.bindTo type = s.writeInteger width ∧ 0 < width ∧ width ≤ 8 := by
  cases type <;> cases h <;> exact ⟨rfl, by decide, by decide⟩

/-- **Integers are bound exactly or refused.** Binding to an integer column succeeds exactly if the
scalar denotes an integer in the range of the column, and the bytes that are appended are as many as
the column has and stand for that integer in two's complement. -/
theorem integers_bound_exactly {type : ColumnType} {width : Nat}
    (h : type.integerWidth? = some width) (s : Scalar) (buffer buffer' : Array UInt8) :
    (s.bindTo type).run buffer = .ok () buffer' ↔
      ∃ (n : Int) (bytes : List UInt8),
        s.Denotes n ∧ (-2 ^ (8 * width - 1) ≤ n ∧ n < 2 ^ (8 * width - 1)) ∧
          (bytes.length = width ∧ signedOf bytes = n) ∧ buffer' = buffer ++ bytes := by
  obtain ⟨hbind, hpos, hwidth⟩ := bindTo_of_integerWidth? h s
  rw [hbind, run_writeInteger_eq_ok hwidth]
  constructor
  · rintro ⟨n, hdenotes, hrange, rfl⟩
    have hlength := length_bigEndian width n
    have hvalue := (signedOf_eq_iff hpos hrange.1 hrange.2 hlength).mpr rfl
    exact ⟨n, _, hdenotes, hrange, ⟨hlength, hvalue⟩, rfl⟩
  · rintro ⟨n, bytes, hdenotes, hrange, ⟨hlength, hvalue⟩, rfl⟩
    obtain rfl := (signedOf_eq_iff hpos hrange.1 hrange.2 hlength).mp hvalue
    exact ⟨n, hdenotes, hrange, rfl⟩

/-- The least integer of 64 bits as a floating-point number is sent, and its negative, which is the
first one beyond the range, is refused. -/
theorem integers_bound_exactly_at_limits :
    ColumnType.int8.integerWidth? = some 8 ∧
      ((float ⟨0xC3E0000000000000⟩).bindTo .int8).run #[7] =
        .ok () #[7, 0x80, 0, 0, 0, 0, 0, 0, 0] ∧
      ∀ buffer', ((float ⟨0x43E0000000000000⟩).bindTo .int8).run #[7] ≠ .ok () buffer' := by
  have hleast : ieeeValue? (0xC3E0000000000000 : UInt64).toNat = some ((-2 ^ 63 : Int) : ℚ) := by
    have hword : (0xC3E0000000000000 : UInt64).toNat = 0xC3E0000000000000 := rfl
    rw [hword]
    norm_num [ieeeValue?]
  have hbeyond : ieeeValue? (0x43E0000000000000 : UInt64).toNat = some ((2 ^ 63 : Int) : ℚ) := by
    have hword : (0x43E0000000000000 : UInt64).toNat = 0x43E0000000000000 := rfl
    rw [hword]
    norm_num [ieeeValue?]
  refine ⟨rfl, ?_, ?_⟩
  · refine (integers_bound_exactly rfl _ _ _).mpr
      ⟨-2 ^ 63, [0x80, 0, 0, 0, 0, 0, 0, 0], .float hleast, by decide, ⟨rfl, ?_⟩, rfl⟩
    decide
  · intro buffer' hrun
    obtain ⟨n, _, hdenotes, hrange, -⟩ := (integers_bound_exactly rfl _ _ _).mp hrun
    cases hdenotes with
    | float hvalue =>
      rw [hbeyond, Option.some.injEq, Int.cast_inj] at hvalue
      omega

end Scalar

end BoundSql
