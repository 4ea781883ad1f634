import BoundSql.Proofs.Parameter.IntegerBinding
import BoundSql.Proofs.Parameter.NumericAcceptance

/-!
# Integers and decimal numbers agree

Integer columns and `NUMERIC` read a text by two grammars of their own. On texts without a point the
grammars are the same (`writesDecimal_iff_writesInteger`), and every integer of 64 bits can be sent
as `NUMERIC`. So a text is the same integer in both types, and for an integer it makes no difference
whether the scalar holds the integer itself or its digits.
-/

namespace BoundSql

open Number Parameter

namespace Parameter

/-! ### Texts without a point -/

theorem writesDecimal_of_writesInteger {cs : List Char} {n : Int} (h : WritesInteger cs n) :
    WritesDecimal cs n 0 := by
  cases h with
  | unsigned hdigits hne =>
    have h := writesDecimal_of_isDigits .absent hdigits hne
    rw [one_mul] at h
    exact_mod_cast h
  | plus hdigits hne =>
    have h := writesDecimal_of_isDigits .plus hdigits hne
    rw [one_mul] at h
    exact_mod_cast h
  | minus hdigits hne =>
    have h := writesDecimal_of_isDigits .minus hdigits hne
    rw [neg_one_mul] at h
    exact_mod_cast h

theorem writesDecimal_iff_writesInteger {cs : List Char} (hpoint : '.' ∉ cs) {q : ℚ} {scale : Nat} :
    WritesDecimal cs q scale ↔ scale = 0 ∧ ∃ n : Int, WritesInteger cs n ∧ q = n := by
  constructor
  · intro h
    cases h with
    | @intro sign whole tail fraction factor signed pointed wholeDigits fractionDigits nonempty =>
      cases pointed with
      | point => simp at hpoint
      | absent =>
        rw [List.append_nil] at nonempty ⊢
        refine ⟨rfl, ?_⟩
        cases signed with
        | absent => exact ⟨_, .unsigned wholeDigits nonempty, by simp⟩
        | plus => exact ⟨_, .plus wholeDigits nonempty, by simp⟩
        | minus => exact ⟨_, .minus wholeDigits nonempty, by simp⟩
  · rintro ⟨rfl, n, hwrites, rfl⟩
    exact writesDecimal_of_writesInteger hwrites

/-- A text writes one integer at most. -/
theorem writesInteger_unique {cs : List Char} {n m : Int} (hn : WritesInteger cs n)
    (hm : WritesInteger cs m) : n = m := by
  have hn := writesDecimal_of_writesInteger hn
  have hm := writesDecimal_of_writesInteger hm
  obtain ⟨d, hparse, hvalue, -⟩ := writesDecimal_iff.mp hn
  obtain ⟨hm, -⟩ := (writesDecimal_iff_of_parse? hparse _ _).mp hm
  rw [← hm, Int.cast_inj] at hvalue
  exact hvalue.symm

/-! ### Integers that can be sent -/

/-- An integer has no groups behind its point. -/
theorem groupAt_intCast_of_neg (n : Int) {position : Int} (h : position < 0) :
    groupAt n position = 0 := by
  obtain ⟨k, hk⟩ := Int.eq_ofNat_of_zero_le (show 0 ≤ -position - 1 by omega)
  have hposition : position = -((k + 1 : Nat) : Int) := by omega
  have hshift : |(n : ℚ)| / 10000 ^ position = ((10000 * (|n| * 10000 ^ k) : Int) : ℚ) := by
    rw [hposition, zpow_neg, zpow_natCast, div_inv_eq_mul]
    push_cast
    ring
  rw [groupAt, hshift, Int.floor_intCast, Int.mul_emod_right]

/-- All groups of an integer below `10000 ^ k` are at the positions below `k`. -/
theorem sendable_intCast {n : Int} {k : Nat} (hk : k ≤ 32767) (hn : |n| < 10000 ^ k) :
    Sendable n 0 := by
  have hlt : |(n : ℚ)| < 10000 ^ (k : Int) := by
    rw [zpow_natCast]
    exact_mod_cast hn
  have hplace (i : Int) (hi : groupAt n i ≠ 0) : 0 ≤ i ∧ i < k := by
    constructor
    · by_contra hneg
      exact hi (groupAt_intCast_of_neg n (by omega))
    · by_contra hhigh
      apply hi
      apply groupAt_eq_zero_of_lt
      exact hlt.trans_le (zpow_le_zpow_right₀ (by norm_num) (by omega))
  refine ⟨by omega, fun hne => ?_, fun i j hi hj => ?_⟩
  · have hbase : |(n : ℚ)| < ((10000 : Nat) : ℚ) ^ (k : Int) := by exact_mod_cast hn
    have hlog := (Int.lt_zpow_iff_log_lt (by norm_num) (abs_pos.mpr hne)).mp hbase
    omega
  · have := hplace i hi
    have := hplace j hj
    omega

theorem sendable_int64 {n : Int} (hlow : -2 ^ 63 ≤ n) (hhigh : n < 2 ^ 64) : Sendable n 0 :=
  sendable_intCast (k := 5) (by decide) (by rw [abs_lt]; omega)

/-! ### What arrives as `NUMERIC` -/

/-- A number that is written and can be sent arrives. -/
theorem exists_run_writeNumeric {cs : List Char} {q : ℚ} {scale : Nat}
    (hwrites : WritesDecimal cs q scale) (hsend : Sendable q scale) (buffer : Array UInt8) :
    ∃ (bytes : List UInt8) (wire : NumericWire),
      (writeNumeric cs).run buffer = .ok () (buffer ++ bytes) ∧
        NumericWire.read bytes = some (wire, []) ∧ wire.value? = some q ∧ wire.scale = scale := by
  obtain ⟨bytes, wire, hrun, hsent⟩ :=
    exists_run_of_numericAccepted (.inr ⟨q, scale, hwrites, hsend⟩) buffer
  exact ⟨bytes, wire, hrun, hsent.read, (hsent.written q scale).mp hwrites⟩

/-- A number that arrives was written, and can be sent. -/
theorem writesDecimal_and_sendable_of_run {cs : List Char} {buffer : Array UInt8}
    {bytes : List UInt8} {wire : NumericWire} {q : ℚ}
    (hrun : (writeNumeric cs).run buffer = .ok () (buffer ++ bytes))
    (hread : NumericWire.read bytes = some (wire, [])) (hvalue : wire.value? = some q) :
    WritesDecimal cs q wire.scale ∧ Sendable q wire.scale := by
  have haccepted : NumericAccepted cs := numericAccepted_of_run hrun
  obtain ⟨sent, received, hrun', hsent⟩ := exists_run_of_numericAccepted haccepted buffer
  -- the bytes are those that are sent, and they are read in one way
  rw [hrun] at hrun'
  obtain rfl : bytes = sent := append_bytes_cancel (EStateM.Result.ok.inj hrun').2
  have hwire : wire = received :=
    congrArg Prod.fst (Option.some.inj (hread.symm.trans hsent.read))
  have hwrites : WritesDecimal cs q wire.scale :=
    (hsent.written q wire.scale).mpr ⟨hwire ▸ hvalue, hwire ▸ rfl⟩
  exact ⟨hwrites, (numericAccepted_iff hwrites).mp haccepted⟩

end Parameter

namespace Scalar

/-- Bound to an integer column of 64 bits, the scalar arrives as the integer. -/
def ArrivesAsInteger (s : Scalar) (buffer : Array UInt8) (n : Int) : Prop :=
  ∃ bytes : List UInt8, (s.bindTo .int8).run buffer = .ok () (buffer ++ bytes) ∧
    bytes.length = 8 ∧ signedOf bytes = n

/-- Bound to a `NUMERIC` column, the scalar arrives as the number with so many digits after the
point. -/
def ArrivesAsNumeric (s : Scalar) (buffer : Array UInt8) (q : ℚ) (scale : Nat) : Prop :=
  ∃ (bytes : List UInt8) (wire : NumericWire),
    (s.bindTo .numeric).run buffer = .ok () (buffer ++ bytes) ∧
      NumericWire.read bytes = some (wire, []) ∧ wire.value? = some q ∧ wire.scale = scale

theorem arrivesAsInteger_iff {s : Scalar} {buffer : Array UInt8} {n : Int} :
    s.ArrivesAsInteger buffer n ↔ s.Denotes n ∧ -2 ^ 63 ≤ n ∧ n < 2 ^ 63 := by
  have hbind : s.bindTo .int8 = s.writeInteger 8 := rfl
  unfold ArrivesAsInteger
  rw [hbind]
  constructor
  · rintro ⟨bytes, hrun, -, rfl⟩
    obtain ⟨n, hdenotes, hrange, hbuffer⟩ := (run_writeInteger_eq_ok le_rfl).mp hrun
    obtain rfl := append_bytes_cancel hbuffer
    rw [signedOf_bigEndian (by decide) hrange.1 hrange.2]
    exact ⟨hdenotes, hrange⟩
  · rintro ⟨hdenotes, hrange⟩
    exact ⟨bigEndian 8 n, (run_writeInteger_eq_ok le_rfl).mpr ⟨n, hdenotes, hrange, rfl⟩,
      length_bigEndian 8 n, signedOf_bigEndian (by decide) hrange.1 hrange.2⟩

theorem arrivesAsNumeric_iff {s : Scalar} {buffer : Array UInt8} {q : ℚ} {scale : Nat} :
    s.ArrivesAsNumeric buffer q scale ↔
      WritesDecimal (Text.trimChars s.plain.toList) q scale ∧ Sendable q scale := by
  unfold ArrivesAsNumeric
  rw [bindTo_numeric]
  constructor
  · rintro ⟨bytes, wire, hrun, hread, hvalue, rfl⟩
    exact writesDecimal_and_sendable_of_run hrun hread hvalue
  · rintro ⟨hwrites, hsend⟩
    exact exists_run_writeNumeric hwrites hsend buffer

/-! ### Integers and their digits -/

/-- An integer is read from its digits. -/
theorem toInteger_integerText (n : Int64) :
    (text (integerText n.toInt)).toInteger = (int n).toInteger := by
  have hlow := n.le_toInt
  have hhigh := n.toInt_lt
  have hread : readInt64 (integerText n.toInt).toList = .ok n.toInt :=
    readInt64_eq_ok_iff.mpr ⟨writesInteger_integerText _, by omega, by omega⟩
  simp only [toInteger, trimChars_integerText, hread, accept]

/-- Outside floating-point columns, an integer and its digits are bound alike. -/
theorem bindTo_integerText (n : Int64) {type : ColumnType} (h : type ∉ [.float4, .float8]) :
    (text (integerText n.toInt)).bindTo type = (int n).bindTo type := by
  have hwrite (width : Nat) :
      (text (integerText n.toInt)).writeInteger width = (int n).writeInteger width := by
    rw [writeInteger, toInteger_integerText, writeInteger]
  cases type with
  | int2 => exact hwrite 2
  | int4 => exact hwrite 4
  | int8 => exact hwrite 8
  | float4 => exact absurd (by decide) h
  | float8 => exact absurd (by decide) h
  -- all other types take the plain text, or nothing
  | _ => rfl

/-- An unsigned integer of 64 bits denotes itself, as an integer or as the text of its digits. -/
theorem denotes_ofUInt64_iff {u : UInt64} {n : Int} : (ofUInt64 u).Denotes n ↔ n = u.toNat := by
  unfold ofUInt64
  split
  · next h =>
    have hvalue : (Int64.ofNat u.toNat).toInt = u.toNat := Int64.toInt_ofNat_of_lt h
    rw [← hvalue]
    constructor
    · rintro ⟨⟩
      rfl
    · rintro rfl
      exact .int _
  · rw [denotes_text_iff, ← integerText_natCast, trimChars_integerText]
    constructor
    · exact fun h => writesInteger_unique h (writesInteger_integerText _)
    · rintro rfl
      exact writesInteger_integerText _

theorem arrivesAsNumeric_ofUInt64 (u : UInt64) (buffer : Array UInt8) :
    (ofUInt64 u).ArrivesAsNumeric buffer u.toNat 0 := by
  have hu := u.toNat_lt
  have hwrites := writesDecimal_of_writesInteger (writesInteger_integerText u.toNat)
  rw [arrivesAsNumeric_iff, plain_ofUInt64, trimChars_integerText]
  exact ⟨hwrites, sendable_int64 (by omega) (by omega)⟩

/-! ### Texts in both types -/

theorem point_notMem_trimChars {cs : List Char} (h : '.' ∉ cs) : '.' ∉ Text.trimChars cs := by
  obtain ⟨front, back, hsplit, -, -⟩ := Text.exists_blanks_trimChars cs
  rw [hsplit] at h
  exact fun hmem => h (List.mem_append_left back (List.mem_append_right front hmem))

/-- A number that a text without a point arrives as is an integer. -/
theorem exists_int_of_arrivesAsNumeric {s : String} {buffer : Array UInt8} {q : ℚ} {scale : Nat}
    (hpoint : '.' ∉ s.toList) (h : (text s).ArrivesAsNumeric buffer q scale) :
    scale = 0 ∧ ∃ n : Int, (text s).Denotes n ∧ q = n := by
  obtain ⟨hwrites, -⟩ := arrivesAsNumeric_iff.mp h
  obtain ⟨hscale, n, hwrites, hq⟩ :=
    (writesDecimal_iff_writesInteger (point_notMem_trimChars hpoint)).mp hwrites
  exact ⟨hscale, n, denotes_text_iff.mpr hwrites, hq⟩

/-- An integer of 64 bits that a text denotes arrives as `NUMERIC` too. -/
theorem arrivesAsNumeric_of_denotes {s : String} {n : Int} (h : (text s).Denotes n)
    (hrange : -2 ^ 63 ≤ n ∧ n < 2 ^ 63) (buffer : Array UInt8) :
    (text s).ArrivesAsNumeric buffer n 0 :=
  arrivesAsNumeric_iff.mpr ⟨writesDecimal_of_writesInteger (denotes_text_iff.mp h),
    sendable_int64 hrange.1 (by omega)⟩

/-- **Integers and decimal numbers agree.** A text without a point arrives as an integer of 64 bits
exactly if it arrives as `NUMERIC` with a value in that range, and then the two are one integer
without digits after a point. An integer and the text of its digits are bound alike to every column
that is not floating-point. And an unsigned integer of 64 bits arrives as itself as `NUMERIC`, as
its digits in a text column, and as an integer if it has 63 bits. -/
theorem integers_and_numerics_agree :
    (∀ (s : String) (buffer : Array UInt8), '.' ∉ s.toList →
      (∀ n : Int, (text s).ArrivesAsInteger buffer n ↔
        (∃ scale, (text s).ArrivesAsNumeric buffer n scale) ∧ -2 ^ 63 ≤ n ∧ n < 2 ^ 63) ∧
      ∀ q scale, (text s).ArrivesAsNumeric buffer q scale → scale = 0 ∧ ∃ n : Int, q = n) ∧
    (∀ (n : Int64) (type : ColumnType) (buffer : Array UInt8), type ∉ [.float4, .float8] →
      ((int n).bindTo type).run buffer =
        ((text (integerText n.toInt)).bindTo type).run buffer) ∧
    ∀ (u : UInt64) (buffer : Array UInt8),
      (ofUInt64 u).ArrivesAsNumeric buffer u.toNat 0 ∧
      ((ofUInt64 u).bindTo .text).run buffer =
        .ok () (buffer ++ (naturalText u.toNat).toUTF8.data.toList) ∧
      ((∃ buffer', ((ofUInt64 u).bindTo .int8).run buffer = .ok () buffer') ↔
        u.toNat < 2 ^ 63) := by
  refine ⟨fun s buffer hpoint => ⟨fun n => ?_, fun q scale h => ?_⟩, fun n type buffer htype => ?_,
    fun u buffer => ⟨arrivesAsNumeric_ofUInt64 u buffer, ?_, ?_⟩⟩
  · rw [arrivesAsInteger_iff]
    constructor
    · rintro ⟨hdenotes, hrange⟩
      exact ⟨⟨0, arrivesAsNumeric_of_denotes hdenotes hrange buffer⟩, hrange⟩
    · rintro ⟨⟨scale, hnumeric⟩, hrange⟩
      obtain ⟨-, m, hdenotes, hcast⟩ := exists_int_of_arrivesAsNumeric hpoint hnumeric
      obtain rfl : n = m := Int.cast_inj.mp hcast
      exact ⟨hdenotes, hrange⟩
  · obtain ⟨hscale, n, -, hq⟩ := exists_int_of_arrivesAsNumeric hpoint h
    exact ⟨hscale, n, hq⟩
  · rw [bindTo_integerText n htype]
  · rw [← integerText_natCast, ← plain_ofUInt64]
    rfl
  · have hbind : (ofUInt64 u).bindTo .int8 = (ofUInt64 u).writeInteger 8 := rfl
    rw [hbind]
    constructor
    · rintro ⟨buffer', hrun⟩
      obtain ⟨n, hdenotes, hrange, -⟩ := (run_writeInteger_eq_ok le_rfl).mp hrun
      rw [denotes_ofUInt64_iff] at hdenotes
      omega
    · intro hu
      exact ⟨_, (run_writeInteger_eq_ok le_rfl).mpr
        ⟨u.toNat, denotes_ofUInt64_iff.mpr rfl, by omega, rfl⟩⟩

/-- A negative integer with zeros and blanks in front of and behind it, and the same integer as a
scalar of its own. -/
theorem integers_and_numerics_agree_on_padded_text :
    '.' ∉ " -007\u3000".toList ∧
      (text " -007\u3000").ArrivesAsInteger #[] (-7) ∧
      (∃ scale, (text " -007\u3000").ArrivesAsNumeric #[] ((-7 : Int) : ℚ) scale) ∧
      ColumnType.numeric ∉ [.float4, .float8] ∧
      ((int (-7)).bindTo .numeric).run #[] = ((text "-7").bindTo .numeric).run #[] := by
  have hpoint : '.' ∉ " -007\u3000".toList := by decide
  have hdenotes : (text " -007\u3000").Denotes (-7) := by
    have hwrites : WritesInteger "-007".toList (-7) := .minus (by decide) (by decide)
    have hsplit : " -007\u3000".toList = [' '] ++ "-007".toList ++ ['\u3000'] := by decide
    exact .text hsplit (List.forall_mem_singleton.mpr rfl) (List.forall_mem_singleton.mpr rfl)
      hwrites
  have hinteger : (text " -007\u3000").ArrivesAsInteger #[] (-7) :=
    arrivesAsInteger_iff.mpr ⟨hdenotes, by norm_num, by norm_num⟩
  have hnumeric := (((integers_and_numerics_agree.1 _ #[] hpoint).1 (-7)).mp hinteger).1
  have hsame := integers_and_numerics_agree.2.1 (-7) .numeric #[] (by decide)
  exact ⟨hpoint, hinteger, hnumeric, by decide, hsame⟩

end Scalar

end BoundSql
