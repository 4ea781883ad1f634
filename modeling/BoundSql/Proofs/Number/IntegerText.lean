import BoundSql.Number.IntegerText
import BoundSql.Proofs.Number.Digits

/-!
# Which texts write an integer

The grammar of integers, as a relation between a text and the integer that it writes: digits, after
at most one sign. It puts no bound on the integer. The reader decides it in the range of 64 bits:

    readInt64_eq_ok_iff :  readInt64 cs = .ok n ↔ WritesInteger cs n ∧ -2⁶³ ≤ n < 2⁶³
-/

namespace BoundSql.Number

/-- The text writes the integer in decimal; it has one digit at least. -/
inductive WritesInteger : List Char → Int → Prop
  | unsigned {digits : List Char} (isDigits : isDigits digits = true) (nonempty : digits ≠ []) :
      WritesInteger digits (digitsValue digits)
  | plus {digits : List Char} (isDigits : isDigits digits = true) (nonempty : digits ≠ []) :
      WritesInteger ('+' :: digits) (digitsValue digits)
  | minus {digits : List Char} (isDigits : isDigits digits = true) (nonempty : digits ≠ []) :
      WritesInteger ('-' :: digits) (-digitsValue digits)

/-! ### Digits up to a limit -/

/-- More digits never make the number smaller. -/
theorem le_ofDigitChars (cs : List Char) (acc : Nat) : acc ≤ Nat.ofDigitChars 10 cs acc := by
  rw [Nat.ofDigitChars_eq_ofDigitChars_zero]
  have hpow : 1 ≤ 10 ^ cs.length := Nat.one_le_pow _ _ (by decide)
  calc acc = 1 * acc := (one_mul acc).symm
    _ ≤ 10 ^ cs.length * acc := Nat.mul_le_mul_right acc hpow
    _ ≤ 10 ^ cs.length * acc + Nat.ofDigitChars 10 cs 0 := Nat.le_add_right _ _

/-- A limit that is checked after each digit is a limit on the whole number. -/
theorem readDigits_eq_ok_iff {limit acc n : Nat} {beyond : IntegerFault} {cs : List Char}
    (hacc : acc ≤ limit) :
    readDigits limit beyond acc cs = .ok n ↔
      isDigits cs = true ∧ n = Nat.ofDigitChars 10 cs acc ∧ n ≤ limit := by
  induction cs generalizing acc with
  | nil =>
    rw [readDigits, Nat.ofDigitChars_nil, Except.ok.injEq]
    constructor
    · rintro rfl
      exact ⟨rfl, rfl, hacc⟩
    · rintro ⟨-, rfl, -⟩
      rfl
  | cons c cs ih =>
    rw [readDigits, Nat.ofDigitChars_cons, isDigits, List.all_cons, Bool.and_eq_true]
    by_cases hc : c.isDigit = true
    · simp only [hc, if_true, true_and]
      by_cases hvalue : 10 * acc + (c.toNat - '0'.toNat) ≤ limit
      · rw [if_pos hvalue, ih hvalue]
        rfl
      · -- the number is beyond the limit already, whatever digits follow
        have hle := le_ofDigitChars cs (10 * acc + (c.toNat - '0'.toNat))
        rw [if_neg hvalue]
        constructor
        · intro h
          cases h
        · rintro ⟨-, rfl, hlimit⟩
          exact absurd (hle.trans hlimit) hvalue
    · simp [hc]

theorem readDigits_zero_eq_ok_iff {limit n : Nat} {beyond : IntegerFault} {cs : List Char} :
    readDigits limit beyond 0 cs = .ok n ↔
      isDigits cs = true ∧ n = digitsValue cs ∧ n ≤ limit :=
  readDigits_eq_ok_iff (Nat.zero_le limit)

/-! ### Integers of 64 bits -/

/-- What a text without a sign writes. -/
theorem writesInteger_unsigned_iff {cs : List Char} {n : Int} (hplus : ∀ ds, cs ≠ '+' :: ds)
    (hminus : ∀ ds, cs ≠ '-' :: ds) :
    WritesInteger cs n ↔ isDigits cs = true ∧ cs ≠ [] ∧ n = digitsValue cs := by
  constructor
  · intro h
    cases h with
    | unsigned hdigits hne => exact ⟨hdigits, hne, rfl⟩
    | plus => exact absurd rfl (hplus _)
    | minus => exact absurd rfl (hminus _)
  · rintro ⟨hdigits, hne, rfl⟩
    exact .unsigned hdigits hne

theorem writesInteger_plus_iff {ds : List Char} {n : Int} :
    WritesInteger ('+' :: ds) n ↔ isDigits ds = true ∧ ds ≠ [] ∧ n = digitsValue ds := by
  constructor
  · intro h
    cases h with
    | unsigned hdigits => cases hdigits
    | plus hdigits hne => exact ⟨hdigits, hne, rfl⟩
  · rintro ⟨hdigits, hne, rfl⟩
    exact .plus hdigits hne

theorem writesInteger_minus_iff {ds : List Char} {n : Int} :
    WritesInteger ('-' :: ds) n ↔ isDigits ds = true ∧ ds ≠ [] ∧ n = -digitsValue ds := by
  constructor
  · intro h
    cases h with
    | unsigned hdigits => cases hdigits
    | minus hdigits hne => exact ⟨hdigits, hne, rfl⟩
  · rintro ⟨hdigits, hne, rfl⟩
    exact .minus hdigits hne

theorem bind_readDigits_eq_ok_iff {limit : Nat} {beyond : IntegerFault} {f : Nat → Int}
    {cs : List Char} {n : Int} :
    (do return f (← readDigits limit beyond 0 cs) : Except IntegerFault Int) = .ok n ↔
      isDigits cs = true ∧ n = f (digitsValue cs) ∧ digitsValue cs ≤ limit := by
  cases h : readDigits limit beyond 0 cs with
  | ok m =>
    obtain ⟨hdigits, rfl, hle⟩ := readDigits_zero_eq_ok_iff.mp h
    constructor
    · rintro ⟨⟩
      exact ⟨hdigits, rfl, hle⟩
    · rintro ⟨-, rfl, -⟩
      rfl
  | error e =>
    constructor
    · rintro ⟨⟩
    · rintro ⟨hdigits, -, hle⟩
      rw [readDigits_zero_eq_ok_iff.mpr ⟨hdigits, rfl, hle⟩] at h
      cases h

theorem readInt64_eq_ok_iff {cs : List Char} {n : Int} :
    readInt64 cs = .ok n ↔ WritesInteger cs n ∧ -2 ^ 63 ≤ n ∧ n < 2 ^ 63 := by
  have hpow : pow2 63 = 2 ^ 63 := rfl
  unfold readInt64
  split
  · simp [writesInteger_unsigned_iff]
  · simp [writesInteger_plus_iff]
  · simp [writesInteger_minus_iff]
  · next ds hne =>
    rw [bind_readDigits_eq_ok_iff, writesInteger_minus_iff, hpow]
    constructor
    · rintro ⟨hdigits, rfl, hle⟩
      exact ⟨⟨hdigits, hne, rfl⟩, by omega, by omega⟩
    · rintro ⟨⟨hdigits, -, rfl⟩, hlow, -⟩
      exact ⟨hdigits, rfl, by omega⟩
  · next ds hne =>
    rw [bind_readDigits_eq_ok_iff, writesInteger_plus_iff, hpow]
    constructor
    · rintro ⟨hdigits, rfl, hle⟩
      exact ⟨⟨hdigits, hne, rfl⟩, by omega, by omega⟩
    · rintro ⟨⟨hdigits, -, rfl⟩, -, hhigh⟩
      exact ⟨hdigits, rfl, by omega⟩
  · next hne _ _ hminus hplus =>
    rw [bind_readDigits_eq_ok_iff, writesInteger_unsigned_iff hplus hminus, hpow]
    constructor
    · rintro ⟨hdigits, rfl, hle⟩
      exact ⟨⟨hdigits, hne, rfl⟩, by omega, by omega⟩
    · rintro ⟨⟨hdigits, -, rfl⟩, -, hhigh⟩
      exact ⟨hdigits, rfl, by omega⟩

/-! ### Texts of integers -/

theorem integerText_natCast (n : Nat) : integerText n = naturalText n := by
  rw [integerText, if_neg (by omega), Int.natAbs_natCast]

/-- The digits of an integer after its sign write that integer. -/
theorem writesInteger_integerText (n : Int) : WritesInteger (integerText n).toList n := by
  have hdigits := isDigits_toDigits n.natAbs
  rw [toList_integerText]
  by_cases hn : n < 0
  · have h := WritesInteger.minus hdigits Nat.toDigits_ne_nil
    rw [digitsValue_toDigits, show -(n.natAbs : Int) = n by omega] at h
    rwa [decide_eq_true hn]
  · have h := WritesInteger.unsigned hdigits Nat.toDigits_ne_nil
    rw [digitsValue_toDigits, show (n.natAbs : Int) = n by omega] at h
    rwa [decide_eq_false hn]

end BoundSql.Number
