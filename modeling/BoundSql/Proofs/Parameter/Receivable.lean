import BoundSql.Proofs.Number.Shortest
import BoundSql.Proofs.Parameter.Agreement

/-!
# Which numbers a server receives

A server takes a `NUMERIC` whose groups are digits in base 10000, whose sign field is one of three,
and whose digits after the point are counted in 14 bits, although their field has 16. What is
appended to a buffer always satisfies all of this but the last: a number with more than 16383 digits
after its point, and no more than 65535, is sent although no server takes it.

    exists_wire_of_run         : what is sent is read back, and only its scale may be too large
    scale_le_of_forall_ne_text : it is not too large for an integer or a floating-point number
    numeric_receivable_iff     : what is received, what is sent in vain, and what is refused
-/

namespace BoundSql

open Number Parameter

namespace Parameter

/-! ### What is received -/

/-- The fields are in the ranges that a server accepts. -/
structure NumericWire.Permitted (wire : NumericWire) : Prop where
  groups : ∀ group ∈ wire.groups, 0 ≤ group ∧ group ≤ 9999
  sign : wire.sign ∈ [0, 0x4000, 0xC000]
  scale : wire.scale ≤ 0x3FFF

/-- The bytes are a `NUMERIC` that a server accepts, as many groups as announced and no more. -/
def Receivable (bytes : List UInt8) : Prop :=
  ∃ wire, NumericWire.read bytes = some (wire, []) ∧ wire.Permitted

theorem receivable_iff {bytes : List UInt8} {wire : NumericWire}
    (hread : NumericWire.read bytes = some (wire, [])) : Receivable bytes ↔ wire.Permitted := by
  constructor
  · rintro ⟨wire', hread', h⟩
    rw [hread] at hread'
    cases hread'
    exact h
  · exact fun h => ⟨wire, hread, h⟩

theorem permitted_nan : (⟨0, 0xC000, 0, []⟩ : NumericWire).Permitted where
  groups := by simp
  sign := by decide
  scale := by decide

theorem toNat_signField_mem (negative : Bool) :
    (signField negative).toNat ∈ [0, 0x4000, 0xC000] := by
  cases negative <;> decide

/-- Of a number that was read from a text, only the scale may be out of range. -/
theorem permitted_wire_ofDecimal_iff {d : DecimalText} (hw : isDigits d.whole = true)
    (hf : isDigits d.fraction = true) :
    (NumericForm.ofDecimal d).wire.Permitted ↔ d.fraction.length ≤ 0x3FFF := by
  rw [← NumericForm.scale_wire_ofDecimal]
  constructor
  · exact fun h => h.scale
  · exact fun h => ⟨(NumericForm.canonical_wire_ofDecimal hw hf).bounds, toNat_signField_mem _, h⟩

/-! ### What is sent -/

/-- What is sent is NaN or a number, and what arrives can be told from its text. -/
theorem exists_wire_of_run {cs : List Char} {buffer buffer' : Array UInt8}
    (hrun : (writeNumeric cs).run buffer = .ok () buffer') :
    ∃ (bytes : List UInt8) (wire : NumericWire), buffer' = buffer ++ bytes ∧
      NumericWire.read bytes = some (wire, []) ∧ (wire.Permitted ↔ wire.scale ≤ 0x3FFF) ∧
      (NaNText cs ∧ wire.scale = 0 ∨
        ∃ q, WritesDecimal cs q wire.scale ∧ Sendable q wire.scale) := by
  by_cases hnan : isNaNWord cs = true
  · rw [run_writeNumeric_of_isNaNWord hnan] at hrun
    cases hrun
    exact ⟨nanBytes, _, rfl, read_nanBytes, ⟨fun h => h.scale, fun _ => permitted_nan⟩,
      .inl ⟨isNaNWord_iff.mp hnan, rfl⟩⟩
  · rw [Bool.not_eq_true] at hnan
    obtain ⟨d, hparse, hsend, rfl⟩ := (run_writeNumeric_iff_sendable hnan).mp hrun
    obtain ⟨hw, hf⟩ := DecimalText.isDigits_of_parse? hparse
    refine ⟨_, _, rfl, read_bytes_of_sendable hparse hsend, ?_, .inr ⟨d.value, ?_⟩⟩
    · rw [NumericForm.scale_wire_ofDecimal]
      exact permitted_wire_ofDecimal_iff hw hf
    · rw [NumericForm.scale_wire_ofDecimal]
      exact ⟨DecimalText.writesDecimal_of_parse? hparse, hsend⟩

/-- A text writes with one number of digits after the point. -/
theorem WritesDecimal.scale_unique {cs : List Char} {q r : ℚ} {k l : Nat}
    (hk : WritesDecimal cs q k) (hl : WritesDecimal cs r l) : k = l := by
  obtain ⟨d, hparse, -, rfl⟩ := writesDecimal_iff.mp hk
  exact ((writesDecimal_iff_of_parse? hparse r l).mp hl).2.symm

/-- What is sent is received if it is NaN, or if not too many digits are written after the point. -/
theorem receivable_of_run_iff {cs : List Char} {buffer : Array UInt8} {bytes : List UInt8}
    (hrun : (writeNumeric cs).run buffer = .ok () (buffer ++ bytes)) :
    Receivable bytes ↔
      NaNText cs ∨ ∃ q scale, WritesDecimal cs q scale ∧ Sendable q scale ∧ scale ≤ 0x3FFF := by
  obtain ⟨sent, wire, hbuffer, hread, hpermitted, hsent⟩ := exists_wire_of_run hrun
  obtain rfl : bytes = sent := append_bytes_cancel hbuffer
  rw [receivable_iff hread, hpermitted]
  rcases hsent with ⟨hnan, hscale⟩ | ⟨q, hwrites, hsend⟩
  · rw [hscale]
    exact ⟨fun _ => .inl hnan, fun _ => Nat.zero_le _⟩
  · constructor
    · exact fun h => .inr ⟨q, _, hwrites, hsend, h⟩
    · rintro (hnan | ⟨r, scale, hwrites', -, h⟩)
      · exact absurd hnan hwrites.not_nanText
      · rwa [hwrites.scale_unique hwrites']

theorem exists_receivable_iff (cs : List Char) (buffer : Array UInt8) :
    (∃ bytes : List UInt8,
        (writeNumeric cs).run buffer = .ok () (buffer ++ bytes) ∧ Receivable bytes) ↔
      NaNText cs ∨ ∃ q scale, WritesDecimal cs q scale ∧ Sendable q scale ∧ scale ≤ 0x3FFF := by
  constructor
  · rintro ⟨bytes, hrun, hreceivable⟩
    exact (receivable_of_run_iff hrun).mp hreceivable
  · intro h
    have haccepted : NumericAccepted cs :=
      h.imp_right fun ⟨q, scale, hwrites, hsend, _⟩ => ⟨q, scale, hwrites, hsend⟩
    obtain ⟨bytes, -, hrun, -⟩ := exists_run_of_numericAccepted haccepted buffer
    exact ⟨bytes, hrun, (receivable_of_run_iff hrun).mpr h⟩

/-- A number that can be sent, but not received, has too many digits after its point. -/
theorem exists_not_receivable_iff (cs : List Char) (buffer : Array UInt8) :
    (∃ bytes : List UInt8,
        (writeNumeric cs).run buffer = .ok () (buffer ++ bytes) ∧ ¬Receivable bytes) ↔
      ∃ q scale, WritesDecimal cs q scale ∧ Sendable q scale ∧ 0x3FFF < scale := by
  constructor
  · rintro ⟨bytes, hrun, hnot⟩
    rw [receivable_of_run_iff hrun, not_or] at hnot
    obtain ⟨_, wire, -, -, -, ⟨hnan, -⟩ | ⟨q, hwrites, hsend⟩⟩ := exists_wire_of_run hrun
    · exact absurd hnan hnot.1
    · refine ⟨q, wire.scale, hwrites, hsend, not_le.mp fun h => ?_⟩
      exact hnot.2 ⟨q, wire.scale, hwrites, hsend, h⟩
  · rintro ⟨q, scale, hwrites, hsend, hscale⟩
    obtain ⟨bytes, wire, hrun, hread, -, rfl⟩ := exists_run_writeNumeric hwrites hsend buffer
    refine ⟨bytes, hrun, fun hreceivable => ?_⟩
    exact hscale.not_ge ((receivable_iff hread).mp hreceivable).scale

/-- A number is written without blanks. -/
theorem WritesDecimal.not_blank {cs : List Char} {q : ℚ} {scale : Nat}
    (h : WritesDecimal cs q scale) : ∀ c ∈ cs, Text.isBlankChar c = false := by
  cases h with
  | @intro sign whole tail fraction factor signed pointed wholeDigits fractionDigits nonempty =>
    have hdigits {ds : List Char} (hds : isDigits ds = true) :
        ∀ c ∈ ds, Text.isBlankChar c = false := fun c hc =>
      Text.isBlankChar_of_isDigit (List.all_eq_true.mp hds c hc)
    have hsign : ∀ c ∈ sign, Text.isBlankChar c = false := by
      cases signed with
      | absent => exact fun _ hc => nomatch hc
      | plus | minus => exact List.forall_mem_singleton.mpr (by decide)
    have htail : ∀ c ∈ tail, Text.isBlankChar c = false := by
      cases pointed with
      | absent => exact fun _ hc => nomatch hc
      | point => exact List.forall_mem_cons.mpr ⟨by decide, hdigits fractionDigits⟩
    exact List.forall_mem_append.mpr
      ⟨hsign, List.forall_mem_append.mpr ⟨hdigits wholeDigits, htail⟩⟩

/-! ### Digits after the point -/

/-- A positional text writes a number, with as many digits after the point as its exponent says. -/
theorem exists_writesDecimal_positional {sign digits : List Char} {factor : ℚ}
    (signed : SignText sign factor) (hdigits : isDigits digits = true) (hne : digits ≠ [])
    (exponent : Int) :
    ∃ q, WritesDecimal (sign ++ positional digits exponent) q (-exponent).toNat := by
  unfold positional
  split
  · next hexponent =>
    have hwhole : isDigits (digits ++ List.replicate exponent.toNat '0') = true := by
      rw [isDigits_append, hdigits, isDigits_replicate_zero]
      rfl
    have hplaces : (-exponent).toNat = 0 := by omega
    rw [hplaces]
    exact ⟨_, writesDecimal_of_isDigits signed hwhole (by simp [hne])⟩
  · dsimp only
    split
    · next hinside =>
      -- the point stands inside the digits
      obtain ⟨k, hk⟩ : ∃ k, k = digits.length - (-exponent).toNat := ⟨_, rfl⟩
      have hsplit := List.take_append_drop k digits
      rw [← hsplit, isDigits_append, Bool.and_eq_true] at hdigits
      have hlength : (digits.drop k).length = (-exponent).toNat := by
        rw [List.length_drop]
        omega
      rw [← hk, ← hlength]
      exact ⟨_, .intro signed (.point _) hdigits.1 hdigits.2 (by rwa [hsplit])⟩
    · next houtside =>
      obtain ⟨fraction, hfraction⟩ : ∃ fraction, fraction =
          List.replicate ((-exponent).toNat - digits.length) '0' ++ digits := ⟨_, rfl⟩
      have hfractionDigits : isDigits fraction = true := by
        rw [hfraction, isDigits_append, hdigits, isDigits_replicate_zero]
        rfl
      have hlength : fraction.length = (-exponent).toNat := by
        rw [hfraction, List.length_append, List.length_replicate]
        omega
      rw [← hfraction, ← hlength]
      exact ⟨_, @WritesDecimal.intro sign ['0'] _ _ _ signed (.point fraction) rfl hfractionDigits
        (List.cons_ne_nil _ _)⟩

end Parameter

namespace Number

/-- No digit of a double-precision number has a weight below `2 ^ -1074`. -/
theorem le_exponent_of_decode {word : Nat} {negative : Bool} {x : Magnitude}
    (h : BinaryFormat.binary64.decode word = .finite negative x) : -1074 ≤ x.exponent := by
  have hmin : BinaryFormat.binary64.minExponent = -1074 := by decide
  unfold BinaryFormat.decode at h
  dsimp only at h
  split at h
  · cases h
    unfold BinaryFormat.unpackMagnitude
    dsimp only
    rw [hmin]
    split <;> simp only <;> omega
  · split at h <;> cases h

theorem exponent_of_onGrid? {r : RoundingInterval} {e : Int} {d : Decimal}
    (h : r.onGrid? e = some d) : d.exponent = e := by
  rw [RoundingInterval.onGrid?_eq] at h
  split_ifs at h <;> cases h <;> rfl

/-- Of the grids that are tried none is finer than `10 ^ -345`. -/
theorem le_exponent_shortest {x : Magnitude} (h : -1074 ≤ x.exponent) :
    -345 ≤ (BinaryFormat.binary64.shortest x).exponent := by
  have hstart : -322 ≤ (BinaryFormat.binary64.interval x).startExponent := by
    rw [RoundingInterval.startExponent]
    have hunit : (BinaryFormat.binary64.interval x).exponent = x.exponent - 2 := rfl
    omega
  rw [BinaryFormat.shortest, RoundingInterval.coarsest]
  cases hfound : (List.range 24).findSome? fun i : Nat =>
      (BinaryFormat.binary64.interval x).onGrid?
        ((BinaryFormat.binary64.interval x).startExponent - i) with
  | none => simp
  | some d =>
    obtain ⟨j, hj, hd, -⟩ := findSome?_range_eq_some hfound
    have hexponent := exponent_of_onGrid? hd
    simp only [Option.getD_some]
    omega

/-- The text of a finite number writes it with at most 345 digits after the point. -/
theorem exists_writesDecimal_text {x : Binary64} {negative : Bool} {magnitude : Magnitude}
    (h : x.datum = .finite negative magnitude) :
    ∃ q scale, WritesDecimal x.text.toList q scale ∧ scale ≤ 345 := by
  obtain ⟨sign, factor, signed, hsign⟩ : ∃ sign factor, SignText sign factor ∧
      ∀ digits : String, (if negative then "-" ++ digits else digits).toList =
        sign ++ digits.toList := by
    cases negative with
    | true => exact ⟨['-'], _, .minus, fun digits => String.toList_append⟩
    | false => exact ⟨[], _, .absent, fun digits => rfl⟩
  have hexponent := le_exponent_shortest (le_exponent_of_decode h)
  rw [Binary64.text, h]
  simp only [hsign]
  split
  · exact ⟨_, _, @writesDecimal_of_isDigits sign ['0'] factor signed rfl (List.cons_ne_nil _ _),
      Nat.zero_le _⟩
  · rw [String.toList_ofList, toList_naturalText]
    obtain ⟨q, hq⟩ := exists_writesDecimal_positional signed
      (isDigits_toDigits _) Nat.toDigits_ne_nil
      (BinaryFormat.binary64.shortest magnitude).exponent
    exact ⟨q, _, hq, by omega⟩

end Number

namespace Scalar

/-- Only a text can have many digits after its point. -/
theorem scale_le_of_forall_ne_text {s : Scalar} (hs : ∀ t, s ≠ .text t) {q : ℚ} {scale : Nat}
    (h : WritesDecimal (Text.trimChars s.plain.toList) q scale) : scale ≤ 345 := by
  cases s with
  | text t => exact absurd rfl (hs t)
  | int n =>
    rw [plain, trimChars_integerText] at h
    have hinteger := writesDecimal_of_writesInteger (writesInteger_integerText n.toInt)
    rw [h.scale_unique hinteger]
    exact Nat.zero_le _
  | float x =>
    rw [plain] at h
    obtain ⟨d, hparse, -⟩ := writesDecimal_iff.mp h
    cases hdatum : x.datum with
    | nan negative =>
      have hnone : DecimalText.parse? (Text.trimChars "NaN".toList) = none := by decide
      rw [Binary64.text, hdatum, hnone] at hparse
      cases hparse
    | infinity negative =>
      have hnone : DecimalText.parse? (Text.trimChars
          (if negative then "-inf" else "inf").toList) = none := by
        cases negative <;> decide
      rw [Binary64.text, hdatum, hnone] at hparse
      cases hparse
    | finite negative magnitude =>
      obtain ⟨r, places, hwrites, hplaces⟩ := exists_writesDecimal_text hdatum
      rw [Text.trimChars_eq_self hwrites.not_blank] at h
      rwa [h.scale_unique hwrites]

end Scalar

/-- Bound as `NUMERIC`, the scalar appends the bytes. -/
def Scalar.SendsNumeric (s : Scalar) (buffer : Array UInt8) (bytes : List UInt8) : Prop :=
  (s.bindTo .numeric).run buffer = .ok () (buffer ++ bytes)

theorem Scalar.sendsNumeric_iff {s : Scalar} {buffer : Array UInt8} {bytes : List UInt8} :
    s.SendsNumeric buffer bytes ↔
      (writeNumeric (Text.trimChars s.plain.toList)).run buffer = .ok () (buffer ++ bytes) := by
  rw [SendsNumeric, bindTo_numeric]

/-! ### Zeros after the point -/

/-- Zero, with so many digits after the point. -/
def zeroText (places : Nat) : String := String.ofList ('0' :: '.' :: List.replicate places '0')

theorem writesDecimal_zeroText (places : Nat) :
    WritesDecimal (Text.trimChars (Scalar.text (zeroText places)).plain.toList) 0 places := by
  have hdigits : isDigits (List.replicate places '0') = true := isDigits_replicate_zero places
  have hvalue : digitsValue (List.replicate places '0') = 0 := by
    have h := digitsValue_zeros_append places []
    rwa [List.append_nil] at h
  have h : WritesDecimal ('0' :: '.' :: List.replicate places '0') _ _ :=
    @WritesDecimal.intro [] ['0'] _ _ _ .absent (.point (List.replicate places '0')) rfl hdigits
      (List.cons_ne_nil _ _)
  have hwhole : digitsValue ['0'] = 0 := rfl
  rw [hvalue, hwhole, Nat.cast_zero, zero_div, add_zero, mul_zero, List.length_replicate] at h
  have hplain : (Scalar.text (zeroText places)).plain.toList =
      '0' :: '.' :: List.replicate places '0' := String.toList_ofList
  rw [hplain, Text.trimChars_eq_self h.not_blank]
  exact h

theorem sendsNumeric_zeroText {places : Nat} {bytes : List UInt8} (h : places ≤ 65535)
    (hbytes : NumericForm.bytes ⟨false, 0, places, []⟩ = bytes) (buffer : Array UInt8) :
    (Scalar.text (zeroText places)).SendsNumeric buffer bytes := by
  obtain ⟨d, hparse, hvalue, rfl⟩ := writesDecimal_iff.mp (writesDecimal_zeroText places)
  have hsent : d.sent = [] := by
    rw [← d.magnitude_eq_zero_iff, ← d.abs_value, hvalue, abs_zero]
  have hform := DecimalText.ofDecimal_of_sent_eq_nil hsent
  rw [Scalar.sendsNumeric_iff, ← hbytes, ← hform]
  refine (run_writeNumeric_iff_sendable (isNaNWord_of_parse? hparse)).mpr ⟨d, hparse, ?_, rfl⟩
  rw [hvalue]
  exact sendable_zero h

/-- **Which `NUMERIC` a server receives.** What a scalar appends when it is bound as `NUMERIC` is
read back with permitted fields, except that too many digits may stand after the point. It is
received exactly if the scalar's text is the word for NaN or writes a number that can be sent with
at most 16383 digits there; with more digits it is sent in vain, which can happen to texts only.
Every other scalar is refused, and the buffer is left as it was. -/
theorem numeric_receivable_iff (s : Scalar) (buffer : Array UInt8) :
    let written := Text.trimChars s.plain.toList
    (∀ bytes, s.SendsNumeric buffer bytes →
        ∃ wire, NumericWire.read bytes = some (wire, []) ∧
          (wire.Permitted ↔ wire.scale ≤ 0x3FFF)) ∧
      ((∃ bytes, s.SendsNumeric buffer bytes ∧ Receivable bytes) ↔
        NaNText written ∨
          ∃ q scale, WritesDecimal written q scale ∧ Sendable q scale ∧ scale ≤ 0x3FFF) ∧
      ((∃ bytes, s.SendsNumeric buffer bytes ∧ ¬Receivable bytes) ↔
        (∃ t, s = .text t) ∧
          ∃ q scale, WritesDecimal written q scale ∧ Sendable q scale ∧ 0x3FFF < scale) ∧
      ((∃ e, (s.bindTo .numeric).run buffer = .error e buffer) ↔ ¬NumericAccepted written) := by
  intro written
  simp only [Scalar.sendsNumeric_iff, bindTo_numeric]
  refine ⟨fun bytes hrun => ?_, exists_receivable_iff written buffer,
    (exists_not_receivable_iff written buffer).trans ⟨fun hlong => ⟨?_, hlong⟩, And.right⟩,
    exists_error_iff written buffer⟩
  · obtain ⟨sent, wire, hbuffer, hread, hpermitted, -⟩ := exists_wire_of_run hrun
    obtain rfl : bytes = sent := append_bytes_cancel hbuffer
    exact ⟨wire, hread, hpermitted⟩
  · obtain ⟨q, scale, hwrites, -, hscale⟩ := hlong
    by_contra hnone
    have hplaces := Scalar.scale_le_of_forall_ne_text (not_exists.mp hnone) hwrites
    omega

/-- Zero with 16383 digits after the point is received, with 65535 it is sent in vain, and with more
it is refused. -/
theorem numeric_receivable_iff_of_zeros :
    (∃ wire, NumericWire.read [0, 0, 0, 0, 0, 0, 0x3F, 0xFF] = some (wire, []) ∧
        (wire.Permitted ↔ wire.scale ≤ 0x3FFF)) ∧
      (∃ bytes, (Scalar.text (zeroText 16383)).SendsNumeric #[7] bytes ∧ Receivable bytes) ∧
      (∃ bytes, (Scalar.text (zeroText 65535)).SendsNumeric #[7] bytes ∧ ¬Receivable bytes) ∧
      ∃ e, ((Scalar.text (zeroText 65536)).bindTo .numeric).run #[7] = .error e #[7] := by
  have hsends : (Scalar.text (zeroText 16383)).SendsNumeric #[7] [0, 0, 0, 0, 0, 0, 0x3F, 0xFF] :=
    sendsNumeric_zeroText (by decide) (by decide) _
  have hnot : ¬NumericAccepted (Text.trimChars (Scalar.text (zeroText 65536)).plain.toList) := by
    rw [numericAccepted_iff (writesDecimal_zeroText 65536)]
    exact fun h => absurd h.scale (by decide)
  obtain ⟨hsent, hreceived, -, -⟩ := numeric_receivable_iff (.text (zeroText 16383)) #[7]
  obtain ⟨-, -, hvain, -⟩ := numeric_receivable_iff (.text (zeroText 65535)) #[7]
  obtain ⟨-, -, -, hrefused⟩ := numeric_receivable_iff (.text (zeroText 65536)) #[7]
  refine ⟨hsent _ hsends, hreceived.mpr (.inr ⟨0, 16383, writesDecimal_zeroText _, ?_⟩),
    hvain.mpr ⟨⟨_, rfl⟩, 0, 65535, writesDecimal_zeroText _, ?_⟩, hrefused.mpr hnot⟩
  · exact ⟨sendable_zero (by decide), by decide⟩
  · exact ⟨sendable_zero (by decide), by decide⟩

/-- Zero with 16384 digits after the point: eight bytes that no server takes. -/
theorem zero_sent_in_vain :
    let bytes : List UInt8 := [0, 0, 0, 0, 0, 0, 0x40, 0]
    (Scalar.text (zeroText 16384)).SendsNumeric #[] bytes ∧ ¬Receivable bytes ∧
      ¬∀ (s : Scalar) (buffer : Array UInt8) (bytes : List UInt8),
        s.SendsNumeric buffer bytes → Receivable bytes := by
  intro bytes
  have hsends : (Scalar.text (zeroText 16384)).SendsNumeric #[] bytes :=
    sendsNumeric_zeroText (by decide) (by decide) _
  have hread : NumericWire.read bytes = some (⟨0, 0, 0x4000, []⟩, []) := by decide
  have hvain : ¬Receivable bytes := by
    rw [receivable_iff hread]
    exact fun h => absurd h.scale (by decide)
  exact ⟨hsends, hvain, fun hall => hvain (hall _ _ _ hsends)⟩

end BoundSql
