import BoundSql.Proofs.Parameter.GroupPosition
import BoundSql.Proofs.Parameter.NumericValue
import BoundSql.Proofs.Text.Ascii

/-!
# Which texts are accepted as `NUMERIC`

A text is accepted if it is the word for NaN, or if it writes a number that can be sent: it has no
more than 65535 digits after the point, its first group is at position 32767 at most, and its groups
span no more than 32767 positions. With how many zeros the number is written before its first digit
does not matter. Every other text is refused, and leaves nothing in the buffer.

    fits_ofDecimal_iff             : the fields fit exactly if the number can be sent
    exists_run_of_numericAccepted  : what is accepted is appended, and read back as it was written
    exists_error_iff               : what is not accepted is refused
    numeric_accepted_or_untouched  : both together
-/

namespace BoundSql.Parameter

open Number
open NumericWire (groupSum)

/-! ### The word for NaN -/

/-- The word for NaN, each letter in either case. -/
inductive NaNText : List Char → Prop
  | of {x y z : Char} : x ∈ ['n', 'N'] → y ∈ ['a', 'A'] → z ∈ ['n', 'N'] → NaNText [x, y, z]

theorem isNaNWord_iff {cs : List Char} : isNaNWord cs = true ↔ NaNText cs := by
  have hn (c : Char) : c.toLower = 'n' ↔ c ∈ ['n', 'N'] := by
    have h : c.toLower = 'n' ↔ c = 'n' ∨ c = 'N' := Text.toLower_eq_iff rfl (by decide)
    simp [h]
  have ha (c : Char) : c.toLower = 'a' ↔ c ∈ ['a', 'A'] := by
    have h : c.toLower = 'a' ↔ c = 'a' ∨ c = 'A' := Text.toLower_eq_iff rfl (by decide)
    simp [h]
  have hword : "nan".toList = ['n', 'a', 'n'] := rfl
  rw [isNaNWord, beq_iff_eq, hword]
  constructor
  · intro h
    obtain ⟨x, _, rfl, hx, h⟩ := List.map_eq_cons_iff.mp h
    obtain ⟨y, _, rfl, hy, h⟩ := List.map_eq_cons_iff.mp h
    obtain ⟨z, _, rfl, hz, h⟩ := List.map_eq_cons_iff.mp h
    obtain rfl := List.map_eq_nil_iff.mp h
    exact .of ((hn x).mp hx) ((ha y).mp hy) ((hn z).mp hz)
  · rintro ⟨hx, hy, hz⟩
    rw [List.map_cons, List.map_cons, List.map_cons, (hn _).mpr hx, (ha _).mpr hy, (hn _).mpr hz]
    rfl

/-- A number is not written by the word for NaN. -/
theorem WritesDecimal.not_nanText {cs : List Char} {q : ℚ} {scale : Nat}
    (h : WritesDecimal cs q scale) : ¬NaNText cs := by
  obtain ⟨d, hparse, -⟩ := writesDecimal_iff.mp h
  rw [← isNaNWord_iff, isNaNWord_of_parse? hparse]
  exact Bool.false_ne_true

/-! ### Numbers that can be sent -/

/-- The number can be sent with so many digits after the point. -/
structure Sendable (q : ℚ) (scale : Nat) : Prop where
  scale : scale ≤ 65535
  first : q ≠ 0 → Int.log 10000 |q| ≤ 32767
  span : SpansAtMost q 32767

theorem sendable_zero {scale : Nat} (h : scale ≤ 65535) : Sendable 0 scale where
  scale := h
  first hne := absurd rfl hne
  span i _ hi := absurd (groupAt_zero i) hi

namespace DecimalText

variable (d : DecimalText)

theorem magnitude_nonneg : 0 ≤ d.magnitude := by
  unfold magnitude
  positivity

theorem abs_value : |d.value| = d.magnitude := by
  have hfactor : |d.factor| = 1 := by
    unfold factor
    split <;> simp
  rw [value, abs_mul, hfactor, one_mul, abs_of_nonneg d.magnitude_nonneg]

/-- The weight is far from its lower bound as long as the digits after the point can be counted. -/
theorem le_sentWeight (h : d.fraction.length ≤ 65535) : -32768 ≤ d.sentWeight := by
  have hgroups := d.length_groups
  unfold sentWeight
  omega

end DecimalText

variable {d : DecimalText}

/-- The fields of a number other than zero fit exactly if it can be sent. -/
theorem fits_ofDecimal_iff_of_ne_nil (hw : isDigits d.whole = true)
    (hf : isDigits d.fraction = true) (hsent : d.sent ≠ []) :
    (NumericForm.ofDecimal d).Fits ↔ Sendable d.value d.fraction.length := by
  obtain ⟨hbounds, hfirst, hlast, -⟩ := NumericForm.canonical_wire_ofDecimal hw hf
  simp only [NumericForm.wire, DecimalText.groups_ofDecimal] at hbounds hfirst hlast
  have hsum : |d.value| = |groupSum d.sentWeight (d.sent.map Nat.cast)| := by
    rw [d.abs_value, d.groupSum_sent, abs_of_nonneg d.magnitude_nonneg]
  have hspan : SpansAtMost d.value 32767 ↔ d.sent.length ≤ 32767 := by
    have hne : d.sent.map (Nat.cast : Nat → Int) ≠ [] := by simpa using hsent
    have h : SpansAtMost (groupSum d.sentWeight (d.sent.map Nat.cast)) 32767 ↔ _ :=
      spansAtMost_groupSum_iff hbounds hne hfirst hlast
    simp only [SpansAtMost, groupAt_congr hsum] at h ⊢
    rw [h, List.length_map]
    omega
  have hlog : Int.log 10000 |d.value| = d.sentWeight := by
    obtain ⟨group, groups, hcons⟩ := List.exists_cons_of_ne_nil hsent
    rw [d.abs_value, ← d.groupSum_sent]
    rw [hcons, List.map_cons] at hbounds hfirst ⊢
    have hgroup : (group : Int) ≠ 0 := fun hzero => hfirst (congrArg some hzero)
    exact log_groupSum_cons (by omega) hbounds _
  have hvalue : d.value ≠ 0 := by
    rw [← abs_ne_zero, d.abs_value]
    exact mt d.magnitude_eq_zero_iff.mp hsent
  rw [DecimalText.ofDecimal_of_sent_ne_nil hsent]
  constructor
  · rintro ⟨hscale, hweight, hcount⟩
    exact ⟨hscale, fun _ => hlog.le.trans hweight.2, hspan.mpr hcount⟩
  · rintro ⟨hscale, hweight, hcount⟩
    exact ⟨hscale, ⟨d.le_sentWeight hscale, hlog.ge.trans (hweight hvalue)⟩, hspan.mp hcount⟩

theorem fits_ofDecimal_iff (hw : isDigits d.whole = true) (hf : isDigits d.fraction = true) :
    (NumericForm.ofDecimal d).Fits ↔ Sendable d.value d.fraction.length := by
  by_cases hsent : d.sent = []
  · have hvalue : d.value = 0 := by
      rw [← abs_eq_zero, d.abs_value]
      exact d.magnitude_eq_zero_iff.mpr hsent
    rw [DecimalText.ofDecimal_of_sent_eq_nil hsent, hvalue]
    constructor
    · rintro ⟨hscale, -, -⟩
      exact sendable_zero hscale
    · rintro ⟨hscale, -, -⟩
      exact ⟨hscale, by simp, Nat.zero_le _⟩
  · exact fits_ofDecimal_iff_of_ne_nil hw hf hsent

/-! ### What is appended -/

/-- The text is the word for NaN, or it writes a number that can be sent. -/
def NumericAccepted (cs : List Char) : Prop :=
  NaNText cs ∨ ∃ q scale, WritesDecimal cs q scale ∧ Sendable q scale

/-- The bytes, read to the last one as the fields `wire`, are those of the text. -/
structure Transmits (bytes : List UInt8) (wire : NumericWire) (cs : List Char) : Prop where
  read : NumericWire.read bytes = some (wire, [])
  /-- Four fields and the groups, two bytes each. -/
  length : bytes.length = 8 + 2 * wire.groups.length
  /-- What the text writes is what arrives, with as many digits after the point. The word for NaN
  writes no number, and none arrives. -/
  written : ∀ q scale, WritesDecimal cs q scale ↔ wire.value? = some q ∧ wire.scale = scale
  canonical : wire.Canonical

/-- Four fields and the groups, two bytes each. -/
theorem NumericForm.length_bytes (form : NumericForm) :
    form.bytes.length = 8 + 2 * form.groups.length := by
  have hgroups : (form.groups.flatMap fun group : Nat => bigEndian 2 group).length =
      2 * form.groups.length := by
    induction form.groups with
    | nil => rfl
    | cons group groups ih =>
      rw [List.flatMap_cons, List.length_append, length_bigEndian, ih, List.length_cons]
      omega
  simp only [NumericForm.bytes, List.length_append, length_bigEndian, hgroups]
  omega

/-- NaN has no groups, and its own sign. -/
def nanBytes : List UInt8 := [0, 0, 0, 0, 0xC0, 0, 0, 0]

theorem run_writeNumeric_of_isNaNWord {cs : List Char} (h : isNaNWord cs = true)
    (buffer : Array UInt8) :
    (writeNumeric cs).run buffer = .ok () (buffer ++ nanBytes) := by
  have hbytes : bigEndian 2 0 ++ (bigEndian 2 0 ++ (bigEndian 2 nanField ++ bigEndian 2 0)) =
      nanBytes := by decide
  have hlast (start : Array UInt8) :
      (emit16 0).run start = .ok () (start ++ bigEndian 2 0) := rfl
  rw [writeNumeric, if_pos h, run_emit16_bind, run_emit16_bind, run_emit16_bind, hlast]
  simp only [append_bytes_append, List.append_assoc, hbytes]

theorem read_nanBytes : NumericWire.read nanBytes = some (⟨0, 0xC000, 0, []⟩, []) := by decide

theorem transmits_nanBytes {cs : List Char} (h : NaNText cs) :
    Transmits nanBytes ⟨0, 0xC000, 0, []⟩ cs where
  read := read_nanBytes
  length := rfl
  written q scale := by
    constructor
    · intro hwrites
      exact absurd h hwrites.not_nanText
    · rintro ⟨hvalue, -⟩
      cases hvalue
  canonical := ⟨by simp, by simp, by simp, fun hvalue => nomatch hvalue⟩

/-- All three checks are made before anything is emitted. -/
theorem atomic_writeForm (form : NumericForm) : (writeForm form).Atomic := by
  refine atomic_inRange_bind fun scale => atomic_inRange_bind fun weight =>
    atomic_inRange_bind fun count => atomic_of_forall_ok fun buffer => ?_
  exact ⟨_, _, run_forM_emit16 form.groups _⟩

theorem atomic_writeNumeric (cs : List Char) : (writeNumeric cs).Atomic := by
  by_cases hnan : isNaNWord cs = true
  · exact atomic_of_forall_ok fun buffer => ⟨_, _, run_writeNumeric_of_isNaNWord hnan buffer⟩
  · rw [writeNumeric, if_neg hnan]
    split
    · exact atomic_writeForm _
    · exact atomic_throw _

/-- A text that is not the word for NaN succeeds if it writes a number that can be sent. -/
theorem run_writeNumeric_iff_sendable {cs : List Char} (hnan : isNaNWord cs = false)
    {buffer buffer' : Array UInt8} :
    (writeNumeric cs).run buffer = .ok () buffer' ↔
      ∃ d, DecimalText.parse? cs = some d ∧ Sendable d.value d.fraction.length ∧
        buffer' = buffer ++ (NumericForm.ofDecimal d).bytes := by
  rw [run_writeNumeric_eq_ok hnan]
  refine exists_congr fun d => and_congr_right fun hparse => ?_
  obtain ⟨hw, hf⟩ := DecimalText.isDigits_of_parse? hparse
  rw [fits_ofDecimal_iff hw hf]

/-- A number that is read and can be sent is received. -/
theorem read_bytes_of_sendable {cs : List Char} (hparse : DecimalText.parse? cs = some d)
    (hsend : Sendable d.value d.fraction.length) :
    NumericWire.read (NumericForm.ofDecimal d).bytes =
      some ((NumericForm.ofDecimal d).wire, []) := by
  obtain ⟨hw, hf⟩ := DecimalText.isDigits_of_parse? hparse
  exact NumericForm.read_bytes ((fits_ofDecimal_iff hw hf).mpr hsend)
    (NumericForm.ofDecimal_groups_lt hw hf)

theorem transmits_of_sendable {cs : List Char} (hparse : DecimalText.parse? cs = some d)
    (hsend : Sendable d.value d.fraction.length) :
    Transmits (NumericForm.ofDecimal d).bytes (NumericForm.ofDecimal d).wire cs := by
  obtain ⟨hw, hf⟩ := DecimalText.isDigits_of_parse? hparse
  refine ⟨read_bytes_of_sendable hparse hsend, ?_, ?_, NumericForm.canonical_wire_ofDecimal hw hf⟩
  · rw [NumericForm.length_bytes, NumericForm.wire, List.length_map]
  · intro q scale
    rw [writesDecimal_iff_of_parse? hparse, NumericForm.value?_wire_ofDecimal,
      NumericForm.scale_wire_ofDecimal, Option.some.injEq]
    exact and_congr eq_comm eq_comm

/-- What is accepted is appended, and transmits what was written. -/
theorem exists_run_of_numericAccepted {cs : List Char} (h : NumericAccepted cs)
    (buffer : Array UInt8) :
    ∃ (bytes : List UInt8) (wire : NumericWire),
      (writeNumeric cs).run buffer = .ok () (buffer ++ bytes) ∧ Transmits bytes wire cs := by
  rcases h with hword | ⟨q, scale, hwrites, hsend⟩
  · exact ⟨_, _, run_writeNumeric_of_isNaNWord (isNaNWord_iff.mpr hword) buffer,
      transmits_nanBytes hword⟩
  · obtain ⟨d, hparse, rfl, rfl⟩ := writesDecimal_iff.mp hwrites
    have hrun : (writeNumeric cs).run buffer =
        .ok () (buffer ++ (NumericForm.ofDecimal d).bytes) :=
      (run_writeNumeric_iff_sendable (isNaNWord_of_parse? hparse)).mpr ⟨d, hparse, hsend, rfl⟩
    exact ⟨_, _, hrun, transmits_of_sendable hparse hsend⟩

/-- Nothing else is accepted. -/
theorem numericAccepted_of_run {cs : List Char} {buffer buffer' : Array UInt8}
    (hrun : (writeNumeric cs).run buffer = .ok () buffer') : NumericAccepted cs := by
  by_cases hnan : isNaNWord cs = true
  · exact .inl (isNaNWord_iff.mp hnan)
  · rw [Bool.not_eq_true] at hnan
    obtain ⟨d, hparse, hsend, -⟩ := (run_writeNumeric_iff_sendable hnan).mp hrun
    exact .inr ⟨_, _, DecimalText.writesDecimal_of_parse? hparse, hsend⟩

/-- What is not accepted is refused, and the buffer is left as it was. -/
theorem exists_error_iff (cs : List Char) (buffer : Array UInt8) :
    (∃ e, (writeNumeric cs).run buffer = .error e buffer) ↔ ¬NumericAccepted cs := by
  constructor
  · rintro ⟨e, he⟩ haccepted
    obtain ⟨bytes, -, hrun, -⟩ := exists_run_of_numericAccepted haccepted buffer
    rw [hrun] at he
    cases he
  · intro hrefused
    cases hrun : (writeNumeric cs).run buffer with
    | error e buffer' =>
      obtain rfl := atomic_writeNumeric cs buffer e buffer' hrun
      exact ⟨e, rfl⟩
    | ok _ buffer' => exact absurd (numericAccepted_of_run hrun) hrefused

/-- A text that writes a number is accepted exactly if the number can be sent. -/
theorem numericAccepted_iff {cs : List Char} {q : ℚ} {scale : Nat} (h : WritesDecimal cs q scale) :
    NumericAccepted cs ↔ Sendable q scale := by
  obtain ⟨d, hparse, rfl, rfl⟩ := writesDecimal_iff.mp h
  constructor
  · rintro (hnan | ⟨q, scale, hwrites, hsend⟩)
    · exact absurd hnan h.not_nanText
    · obtain ⟨rfl, rfl⟩ := (writesDecimal_iff_of_parse? hparse q scale).mp hwrites
      exact hsend
  · intro hsend
    exact .inr ⟨_, _, h, hsend⟩

/-! ### At the limit -/

/-- A power of 10000, behind any number of zeros. -/
def powerText (zeros k : Nat) : List Char :=
  List.replicate zeros '0' ++ ['1'] ++ List.replicate (4 * k) '0'

theorem writesDecimal_powerText (zeros k : Nat) :
    WritesDecimal (powerText zeros k) (10000 ^ k) 0 := by
  have hdigits : isDigits (powerText zeros k) = true := by
    simp only [powerText, isDigits_append, isDigits_replicate_zero, Bool.true_and, Bool.and_true]
    rfl
  have hone : digitsValue ['1'] = 1 := rfl
  have hvalue : digitsValue (powerText zeros k) = 10000 ^ k := by
    rw [powerText, digitsValue_append_zeros, digitsValue_zeros_append, hone, one_mul, pow_mul]
    norm_num
  have hwrites := writesDecimal_of_isDigits .absent hdigits (by simp [powerText])
  rw [List.nil_append, hvalue, one_mul] at hwrites
  exact_mod_cast hwrites

theorem sendable_power_iff (k : Nat) : Sendable (10000 ^ k) 0 ↔ k ≤ 32767 := by
  have hsum : (10000 : ℚ) ^ k = groupSum k [1] := by
    rw [NumericWire.groupSum_cons, NumericWire.groupSum_nil, zpow_natCast]
    norm_num
  have hbounds : ∀ g ∈ [(1 : Int)], 0 ≤ g ∧ g ≤ 9999 := by decide
  have hlog := log_groupSum_cons (by decide) hbounds k
  have hnonneg : (0 : ℚ) ≤ groupSum k [1] := NumericWire.groupSum_nonneg (by decide) k
  have hspan : SpansAtMost (groupSum k [1]) 32767 :=
    (spansAtMost_groupSum_iff hbounds (by decide) (by decide) (by decide)).mpr (by decide)
  constructor
  · rintro ⟨-, hfirst, -⟩
    have hle := hfirst (pow_ne_zero k (by norm_num))
    rw [hsum, abs_of_nonneg hnonneg, hlog] at hle
    omega
  · intro hk
    refine ⟨by decide, fun _ => ?_, by rwa [hsum]⟩
    rw [hsum, abs_of_nonneg hnonneg, hlog]
    omega

/-- The first group may be at position 32767, whatever the number of zeros before it. -/
theorem numericAccepted_powerText_iff (zeros k : Nat) :
    NumericAccepted (powerText zeros k) ↔ k ≤ 32767 := by
  rw [numericAccepted_iff (writesDecimal_powerText zeros k), sendable_power_iff]

/-! ### Accepted or untouched -/

/-- **Acceptance of `NUMERIC`.** The word for NaN and the numbers that can be sent are accepted:
four fields and the groups are appended, two bytes each, and they are read back as the very number
that was written. Every other text is refused, and the buffer is left as it was. -/
theorem numeric_accepted_or_untouched (cs : List Char) (buffer : Array UInt8) :
    (NumericAccepted cs → ∃ (bytes : List UInt8) (wire : NumericWire),
      (writeNumeric cs).run buffer = .ok () (buffer ++ bytes) ∧
        NumericWire.read bytes = some (wire, []) ∧
        bytes.length = 8 + 2 * wire.groups.length ∧
        (∀ q scale, WritesDecimal cs q scale ↔ wire.value? = some q ∧ wire.scale = scale) ∧
        wire.Canonical) ∧
    (¬ NumericAccepted cs → ∃ e, (writeNumeric cs).run buffer = .error e buffer) := by
  constructor
  · intro haccepted
    obtain ⟨bytes, wire, hrun, hsent⟩ := exists_run_of_numericAccepted haccepted buffer
    exact ⟨bytes, wire, hrun, hsent.read, hsent.length, hsent.written, hsent.canonical⟩
  · intro hrefused
    exact (exists_error_iff cs buffer).mpr hrefused

/-- The largest power of 10000 that can be sent, behind forty thousand zeros, and the first one that
cannot. -/
theorem numeric_accepted_or_untouched_at_limit :
    (NumericAccepted (powerText 40000 32767) ∧ ∃ (bytes : List UInt8) (wire : NumericWire),
      (writeNumeric (powerText 40000 32767)).run #[7] = .ok () ((#[7] : Array UInt8) ++ bytes) ∧
        NumericWire.read bytes = some (wire, []) ∧
        bytes.length = 8 + 2 * wire.groups.length ∧
        (∀ q scale, WritesDecimal (powerText 40000 32767) q scale ↔
          wire.value? = some q ∧ wire.scale = scale) ∧
        wire.Canonical) ∧
    (¬ NumericAccepted (powerText 0 32768) ∧
      ∃ e, (writeNumeric (powerText 0 32768)).run #[7] = .error e #[7]) := by
  have haccepted := (numericAccepted_powerText_iff 40000 32767).mpr le_rfl
  have hrefused := mt (numericAccepted_powerText_iff 0 32768).mp (by omega)
  exact ⟨⟨haccepted, (numeric_accepted_or_untouched _ _).1 haccepted⟩,
    ⟨hrefused, (numeric_accepted_or_untouched _ _).2 hrefused⟩⟩

end BoundSql.Parameter
