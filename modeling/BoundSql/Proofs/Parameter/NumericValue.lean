import BoundSql.Proofs.Parameter.NumericForm
import BoundSql.Proofs.Text.Blank
import BoundSql.Parameter.Column

/-!
# What arrives when a number is bound as `NUMERIC`

A text that is accepted, and is not the word for NaN, arrives as exactly the number that it writes
in decimal, in canonical form. The 64-bit integers, signed and unsigned, are always accepted and
arrive as themselves.
-/

namespace BoundSql

open Number Parameter

namespace Parameter

/-! ### Accepted texts -/

/-- Any text that writes a number has a digit. -/
theorem WritesDecimal.exists_isDigit {cs : List Char} {q : ℚ} {scale : Nat}
    (h : WritesDecimal cs q scale) : ∃ c ∈ cs, c.isDigit = true := by
  cases h with
  | @intro sign whole tail fraction factor signed pointed wholeDigits fractionDigits nonempty =>
    obtain ⟨c, hc⟩ := List.exists_mem_of_ne_nil _ nonempty
    have hdigits : isDigits (whole ++ fraction) = true := by
      rw [isDigits_append, wholeDigits, fractionDigits]
      rfl
    rw [isDigits, List.all_eq_true] at hdigits
    refine ⟨c, ?_, hdigits c hc⟩
    have htail : fraction ⊆ tail := by
      cases pointed with
      | absent => exact List.Subset.refl _
      | point => exact List.subset_cons_self _ _
    rcases List.mem_append.mp hc with hw | hf
    · exact List.mem_append_right sign (List.mem_append_left tail hw)
    · exact List.mem_append_right sign (List.mem_append_right whole (htail hf))

/-- The word for NaN has no digit, so it writes no number. -/
theorem isNaNWord_of_parse? {cs : List Char} {d : DecimalText}
    (h : DecimalText.parse? cs = some d) : isNaNWord cs = false := by
  obtain ⟨c, hc, hdigit⟩ := (DecimalText.writesDecimal_of_parse? h).exists_isDigit
  rw [isNaNWord, beq_eq_false_iff_ne]
  intro hnan
  -- a digit has no other case, so it would have to be one of the letters
  have hword : "nan".toList = ['n', 'a', 'n'] := rfl
  have hmem : c.toLower ∈ ['n', 'a', 'n'] := by
    rw [← hword, ← hnan]
    exact List.mem_map_of_mem hc
  have hlower : c.toLower = c := by
    simp only [Char.isDigit, Bool.and_eq_true, decide_eq_true_eq] at hdigit
    unfold Char.toLower
    rw [dif_neg]
    rintro ⟨hupper, -⟩
    have hle : 'A'.val ≤ '9'.val := UInt32.le_trans hupper hdigit.2
    exact absurd hle (by decide)
  rw [hlower] at hmem
  simp only [List.mem_cons, List.not_mem_nil, or_false] at hmem
  rcases hmem with rfl | rfl | rfl <;> exact absurd hdigit (by decide)

/-- A text that is not the word for NaN is accepted if it writes a number whose fields fit. -/
theorem run_writeNumeric_eq_ok {cs : List Char} (hnan : isNaNWord cs = false)
    {buffer buffer' : Array UInt8} :
    (writeNumeric cs).run buffer = .ok () buffer' ↔
      ∃ d, DecimalText.parse? cs = some d ∧ (NumericForm.ofDecimal d).Fits ∧
        buffer' = buffer ++ (NumericForm.ofDecimal d).bytes := by
  unfold writeNumeric
  rw [hnan, if_neg Bool.false_ne_true]
  cases hparse : DecimalText.parse? cs with
  | none =>
    constructor
    · intro h
      cases h
    · rintro ⟨_, hd, -⟩
      cases hd
  | some d =>
    constructor
    · intro h
      exact ⟨d, rfl, run_writeForm_eq_ok.mp h⟩
    · rintro ⟨e, he, h⟩
      cases he
      exact run_writeForm_eq_ok.mpr h

/-! ### Integers -/

/-- Digits after at most a minus sign are read as they stand. -/
theorem parse?_integer (negative : Bool) {cs : List Char} (hcs : isDigits cs = true)
    (hne : cs ≠ []) :
    DecimalText.parse? ((if negative then ['-'] else []) ++ cs) = some ⟨negative, cs, []⟩ := by
  have hsign : splitSign ((if negative then ['-'] else []) ++ cs) = (negative, cs) := by
    cases negative with
    | true => rfl
    | false =>
      have h := DecimalText.splitSign_unsigned .absent hcs
      rwa [List.append_nil] at h
  obtain ⟨hwhole, hfraction⟩ := DecimalText.split_at_point .absent hcs
  rw [List.append_nil] at hwhole hfraction
  rw [DecimalText.parse?_eq_some_iff, hsign]
  refine ⟨⟨rfl, hwhole.symm, hfraction.symm⟩, hcs, rfl, ?_⟩
  rwa [List.append_nil]

/-- Numbers of moderate length always fit. -/
theorem fits_ofDecimal {d : DecimalText} (hw : d.whole.length ≤ 65532)
    (hf : d.fraction.length ≤ 65532) : (NumericForm.ofDecimal d).Fits := by
  have hwhole := d.wholeGroups_le
  have hfirst : (d.groups.dropWhile (· == 0)).length ≤ d.groups.length :=
    List.length_dropWhile_le _ _
  have hsent : d.sent.length ≤ (d.groups.dropWhile (· == 0)).length :=
    (List.rdropWhile_prefix _ _).length_le
  have hgroups := d.length_groups
  -- no more than 16383 groups on either side of the point
  by_cases h : d.sent = []
  · rw [DecimalText.ofDecimal_of_sent_eq_nil h]
    refine ⟨by simp only; omega, ?_, Nat.zero_le _⟩
    simp only
    omega
  · rw [DecimalText.ofDecimal_of_sent_ne_nil h]
    refine ⟨by simp only; omega, ?_, by simp only; omega⟩
    simp only [DecimalText.sentWeight]
    omega

/-- The digits of an integer after its sign write that integer. -/
theorem value_integer (n : Int) :
    DecimalText.value ⟨decide (n < 0), Nat.toDigits 10 n.natAbs, []⟩ = n := by
  have hcast : ((n.natAbs : Nat) : ℚ) = ((n.natAbs : Int) : ℚ) := (Int.cast_natCast _).symm
  simp only [DecimalText.value, DecimalText.factor, DecimalText.magnitude, digitsValue_toDigits,
    digitsValue_nil, Nat.cast_zero, zero_div, add_zero, decide_eq_true_eq]
  split
  · have habs : (n.natAbs : Int) = -n := by omega
    rw [hcast, habs, Int.cast_neg, neg_one_mul, neg_neg]
  · have habs : (n.natAbs : Int) = n := by omega
    rw [hcast, habs, one_mul]

/-- An integer of moderate size is accepted and arrives as itself. -/
theorem run_writeNumeric_integerText {n : Int} (hn : n.natAbs < 10 ^ 20) (buffer : Array UInt8) :
    ∃ (bytes : List UInt8) (wire : NumericWire),
      (writeNumeric (integerText n).toList).run buffer = .ok () (buffer ++ bytes) ∧
        NumericWire.read bytes = some (wire, []) ∧ wire.value? = some (n : ℚ) := by
  have hdigits := isDigits_toDigits n.natAbs
  have hparse := parse?_integer (decide (n < 0)) hdigits Nat.toDigits_ne_nil
  rw [← toList_integerText] at hparse
  have hlen : (Nat.toDigits 10 n.natAbs).length ≤ 20 :=
    (Nat.length_toDigits_le_iff (by decide) (by decide)).mpr hn
  have hfits := fits_ofDecimal (d := ⟨decide (n < 0), Nat.toDigits 10 n.natAbs, []⟩)
    (by simp only; omega) (by simp)
  refine ⟨_, _, (run_writeNumeric_eq_ok (isNaNWord_of_parse? hparse)).mpr ⟨_, hparse, hfits, rfl⟩,
    NumericForm.read_bytes hfits (NumericForm.ofDecimal_groups_lt hdigits rfl), ?_⟩
  rw [NumericForm.value?_wire_ofDecimal, value_integer]

/-! ### Binding integers -/

/-- Nothing is trimmed from the digits of an integer. -/
theorem trimChars_integerText (n : Int) :
    Text.trimChars (integerText n).toList = (integerText n).toList := by
  apply Text.trimChars_eq_self
  intro c hc
  rcases mem_integerText hc with rfl | hdigit
  · decide
  · exact Text.isBlankChar_of_isDigit hdigit

/-- What is bound as `NUMERIC` is the plain text of the scalar. -/
theorem bindTo_numeric (s : Scalar) :
    s.bindTo .numeric = writeNumeric (Text.trimChars s.plain.toList) := rfl

theorem run_bindTo_numeric_integerText {s : Scalar} {n : Int} (hs : s.plain = integerText n)
    (hn : n.natAbs < 10 ^ 20) (buffer : Array UInt8) :
    ∃ (bytes : List UInt8) (wire : NumericWire),
      (s.bindTo .numeric).run buffer = .ok () (buffer ++ bytes) ∧
        NumericWire.read bytes = some (wire, []) ∧ wire.value? = some (n : ℚ) := by
  rw [bindTo_numeric, hs, trimChars_integerText]
  exact run_writeNumeric_integerText hn buffer

/-- An unsigned integer of 64 bits keeps its digits, whichever scalar it becomes. -/
theorem plain_ofUInt64 (u : UInt64) : (Scalar.ofUInt64 u).plain = integerText u.toNat := by
  have hnonneg : ¬ ((u.toNat : Nat) : Int) < 0 := by omega
  unfold Scalar.ofUInt64
  split
  · next h =>
    have hvalue : (Int64.ofNat u.toNat).toInt = u.toNat := Int64.toInt_ofNat_of_lt h
    rw [Scalar.plain, hvalue]
  · rw [Scalar.plain, integerText, if_neg hnonneg, Int.natAbs_natCast]

end Parameter

/-- **`NUMERIC` is exact and canonical.** Whatever text is accepted, other than the word for NaN,
its bytes are read back, to the last one, as the very number that it writes in decimal, with as many
digits after the point, in canonical form. And every integer of 64 bits, signed or not, is accepted
and read back as itself. -/
theorem writeNumeric_exact_and_canonical :
    (∀ (cs : List Char) (buffer buffer' : Array UInt8), isNaNWord cs = false →
      (writeNumeric cs).run buffer = .ok () buffer' →
        ∃ (bytes : List UInt8) (wire : NumericWire) (q : ℚ),
          buffer' = buffer ++ bytes ∧ NumericWire.read bytes = some (wire, []) ∧
            wire.value? = some q ∧
            (∀ r scale, WritesDecimal cs r scale ↔ r = q ∧ scale = wire.scale) ∧
            wire.Canonical) ∧
    (∀ (n : Int64) (buffer : Array UInt8), ∃ (bytes : List UInt8) (wire : NumericWire),
      ((Scalar.int n).bindTo .numeric).run buffer = .ok () (buffer ++ bytes) ∧
        NumericWire.read bytes = some (wire, []) ∧ wire.value? = some (n.toInt : ℚ)) ∧
    (∀ (u : UInt64) (buffer : Array UInt8), ∃ (bytes : List UInt8) (wire : NumericWire),
      ((Scalar.ofUInt64 u).bindTo .numeric).run buffer = .ok () (buffer ++ bytes) ∧
        NumericWire.read bytes = some (wire, []) ∧ wire.value? = some (u.toNat : ℚ)) := by
  refine ⟨?_, ?_, ?_⟩
  · intro cs buffer buffer' hnan hrun
    obtain ⟨d, hparse, hfits, rfl⟩ := (run_writeNumeric_eq_ok hnan).mp hrun
    obtain ⟨hw, hf⟩ := DecimalText.isDigits_of_parse? hparse
    refine ⟨_, (NumericForm.ofDecimal d).wire, d.value, rfl,
      NumericForm.read_bytes hfits (NumericForm.ofDecimal_groups_lt hw hf),
      NumericForm.value?_wire_ofDecimal d, ?_, NumericForm.canonical_wire_ofDecimal hw hf⟩
    intro r scale
    rw [NumericForm.scale_wire_ofDecimal]
    exact writesDecimal_iff_of_parse? hparse r scale
  · intro n buffer
    have hn : n.toInt.natAbs < 10 ^ 20 := by
      have hlow := n.le_toInt
      have hhigh := n.toInt_lt
      omega
    exact run_bindTo_numeric_integerText rfl hn buffer
  · intro u buffer
    have hu : ((u.toNat : Nat) : Int).natAbs < 10 ^ 20 := by
      have hhigh := u.toNat_lt
      omega
    obtain ⟨bytes, wire, hrun, hread, hvalue⟩ :=
      run_bindTo_numeric_integerText (plain_ofUInt64 u) hu buffer
    exact ⟨bytes, wire, hrun, hread, hvalue⟩

/-- A negative number with zeros at both ends: three groups, the first of them at weight one. -/
theorem writeNumeric_exact_with_outer_zeros :
    isNaNWord "-0012345.678900".toList = false ∧
      (writeNumeric "-0012345.678900".toList).run #[] =
        .ok () #[0, 3, 0, 1, 64, 0, 0, 6, 0, 1, 9, 41, 26, 133] ∧
      ∃ (bytes : List UInt8) (wire : NumericWire) (q : ℚ),
        #[0, 3, 0, 1, 64, 0, 0, 6, 0, 1, 9, 41, 26, 133] = (#[] : Array UInt8) ++ bytes ∧
          NumericWire.read bytes = some (wire, []) ∧ wire.value? = some q ∧
          (∀ r scale, WritesDecimal "-0012345.678900".toList r scale ↔
            r = q ∧ scale = wire.scale) ∧
          wire.Canonical := by
  have hnan : isNaNWord "-0012345.678900".toList = false := by decide
  have hform : NumericForm.ofDecimal ⟨true, "0012345".toList, "678900".toList⟩ =
      ⟨true, 1, 6, [1, 2345, 6789]⟩ := by decide
  have hbytes : NumericForm.bytes ⟨true, 1, 6, [1, 2345, 6789]⟩ =
      [0, 3, 0, 1, 64, 0, 0, 6, 0, 1, 9, 41, 26, 133] := by decide
  have hrun : (writeNumeric "-0012345.678900".toList).run #[] =
      .ok () #[0, 3, 0, 1, 64, 0, 0, 6, 0, 1, 9, 41, 26, 133] := by
    refine (run_writeNumeric_eq_ok hnan).mpr
      ⟨⟨true, "0012345".toList, "678900".toList⟩, by decide, ?_, ?_⟩
    · rw [hform]
      exact ⟨by decide, by decide, by decide⟩
    · rw [hform, hbytes]
      rfl
  exact ⟨hnan, hrun, writeNumeric_exact_and_canonical.1 _ _ _ hnan hrun⟩

end BoundSql
