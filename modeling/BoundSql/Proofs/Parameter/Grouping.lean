import BoundSql.Proofs.Chunks
import BoundSql.Proofs.Number.Overflow
import BoundSql.Proofs.Parameter.NumericForm

/-!
# Grouping digits in numbers of fixed width

A group of a decimal number is folded from four bytes into a signed number of 16 bits, and the
weight of its first group is a signed number of 32 bits. In numbers of these widths, and without a
result as soon as one operation overflows, the digits of every text below `2 ^ 31` bytes are grouped
all the same, and the result is the form that is written.

    foldlM_pushDigit?        : digits are folded to the number they write, if it fits
    Fours.chunks_eq          : the chunks of the padded digits are groups of four digits
    exists_weights           : the weight is exact before and after the groups of zero
    grouping_never_overflows : no operation overflows below `2 ^ 31` bytes
-/

namespace BoundSql.Parameter

open Number

/-! ### Bytes of digits -/

/-- The bytes of a text. -/
def utf8 (cs : List Char) : List UInt8 := (String.ofList cs).toUTF8.data.toList

theorem utf8_eq_flatMap (cs : List Char) : utf8 cs = cs.flatMap String.utf8EncodeChar := by
  rw [utf8, String.toUTF8_eq_toByteArray, String.toByteArray_ofList, List.utf8Encode,
    List.data_toByteArray]

theorem length_utf8 (cs : List Char) : (utf8 cs).length = (String.ofList cs).utf8ByteSize := rfl

/-- Each character has a byte at least. -/
theorem length_le_utf8ByteSize (text : String) : text.toList.length ≤ text.utf8ByteSize := by
  have hbytes := length_utf8 text.toList
  rw [String.ofList_toList, utf8_eq_flatMap] at hbytes
  rw [← hbytes]
  induction text.toList with
  | nil => exact le_rfl
  | cons c cs ih =>
    have hc := c.utf8Size_pos
    rw [List.flatMap_cons, List.length_append, List.length_cons, String.length_utf8EncodeChar]
    omega

variable {c : Char} {cs : List Char}

theorem toNat_toUInt8_of_isDigit (hc : c.isDigit = true) : c.toUInt8.toNat = c.toNat := by
  have hcode := toNat_of_isDigit hc
  show c.toNat % 256 = c.toNat
  omega

theorem utf8EncodeChar_of_isDigit (hc : c.isDigit = true) :
    String.utf8EncodeChar c = [c.toUInt8] := by
  have hle : c.val ≤ 0x7f := by
    have hcode := toNat_of_isDigit hc
    rw [UInt32.le_iff_toNat_le]
    show c.toNat ≤ 127
    omega
  exact String.utf8EncodeChar_eq_singleton (if_pos hle)

/-- Digits are one byte each. -/
theorem utf8_of_isDigits (hcs : isDigits cs = true) : utf8 cs = cs.map Char.toUInt8 := by
  rw [utf8_eq_flatMap]
  induction cs with
  | nil => rfl
  | cons c cs ih =>
    rw [isDigits, List.all_cons, Bool.and_eq_true] at hcs
    rw [List.flatMap_cons, utf8EncodeChar_of_isDigit hcs.1, ih hcs.2, List.map_cons]
    rfl

/-! ### Folding -/

/-- One more digit behind a number, in 16 bits: `10 · value + (byte - '0')`, where the difference is
one of unsigned bytes. -/
def pushDigit? (value : BitVec 16) (byte : UInt8) : Option (BitVec 16) := do
  let digit ← subUnsigned? byte.toBitVec '0'.toUInt8.toBitVec
  let shifted ← mulSigned? value 10#16
  addSigned? shifted (digit.setWidth 16)

/-- The number of a chunk of digits. -/
def groupOf? (chunk : List UInt8) : Option (BitVec 16) := chunk.foldlM pushDigit? 0#16

theorem digit_le_nine (hc : c.isDigit = true) : c.toNat - '0'.toNat ≤ 9 := by
  have hcode := toNat_of_isDigit hc
  have hzero : '0'.toNat = 48 := rfl
  omega

theorem subUnsigned?_of_isDigit (hc : c.isDigit = true) :
    subUnsigned? c.toUInt8.toBitVec '0'.toUInt8.toBitVec =
      some (BitVec.ofNat 8 (c.toNat - '0'.toNat)) := by
  have hcode := toNat_of_isDigit hc
  have hbyte : c.toUInt8.toBitVec.toNat = c.toNat := toNat_toUInt8_of_isDigit hc
  have hzero : '0'.toUInt8.toBitVec.toNat = '0'.toNat := rfl
  have hdigit := digit_le_nine hc
  have hle : '0'.toNat ≤ c.toNat := hcode.1
  rw [subUnsigned?_eq_some_iff, hbyte, hzero, BitVec.toNat_ofNat]
  omega

/-- A digit more is exact as long as all digits fit there. -/
theorem pushDigit?_of_isDigit (hc : c.isDigit = true) {n : Nat} (hn : (n + 1) * 10 ≤ 2 ^ 15) :
    pushDigit? (BitVec.ofNat 16 n) c.toUInt8 =
      some (BitVec.ofNat 16 (10 * n + (c.toNat - '0'.toNat))) := by
  have hle := digit_le_nine hc
  have hdigit := subUnsigned?_of_isDigit hc
  generalize c.toNat - '0'.toNat = digit at hle hdigit ⊢
  have hshift : mulSigned? (BitVec.ofNat 16 n) 10#16 = some (BitVec.ofNat 16 (10 * n)) := by
    rw [mulSigned?_eq_some_iff, toInt_ofNat_of_lt (by omega), toInt_ofNat_of_lt (by omega),
      toInt_ofNat_of_lt (by omega)]
    omega
  have hwiden : (BitVec.ofNat 8 digit).setWidth 16 = BitVec.ofNat 16 digit := by
    apply BitVec.eq_of_toNat_eq
    rw [BitVec.toNat_setWidth, BitVec.toNat_ofNat, BitVec.toNat_ofNat]
    omega
  have hadd : addSigned? (BitVec.ofNat 16 (10 * n)) (BitVec.ofNat 16 digit) =
      some (BitVec.ofNat 16 (10 * n + digit)) := by
    rw [addSigned?_eq_some_iff, toInt_ofNat_of_lt (by omega), toInt_ofNat_of_lt (by omega),
      toInt_ofNat_of_lt (by omega)]
    omega
  rw [pushDigit?, hdigit, Option.bind_eq_bind, Option.bind_some, hshift, Option.bind_eq_bind,
    Option.bind_some, hwiden, hadd]

/-- Digits are folded to the number they write, if as many nines would fit behind the first
number. -/
theorem foldlM_pushDigit? (hcs : isDigits cs = true) {n : Nat}
    (hn : (n + 1) * 10 ^ cs.length ≤ 2 ^ 15) :
    (cs.map Char.toUInt8).foldlM pushDigit? (BitVec.ofNat 16 n) =
      some (BitVec.ofNat 16 (Nat.ofDigitChars 10 cs n)) := by
  induction cs generalizing n with
  | nil => rfl
  | cons c cs ih =>
    rw [isDigits, List.all_cons, Bool.and_eq_true] at hcs
    rw [List.length_cons, Nat.pow_succ, Nat.mul_comm _ 10, ← Nat.mul_assoc] at hn
    have hfirst : (n + 1) * 10 ≤ 2 ^ 15 :=
      (Nat.le_mul_of_pos_right _ (Nat.pow_pos (by decide))).trans hn
    -- the digit makes the number no larger than a nine would
    have hnine : 10 * n + (c.toNat - '0'.toNat) + 1 ≤ (n + 1) * 10 := by
      have hdigit := digit_le_nine hcs.1
      omega
    have hrest := (Nat.mul_le_mul_right (10 ^ cs.length) hnine).trans hn
    rw [List.map_cons, List.foldlM_cons, pushDigit?_of_isDigit hcs.1 hfirst, Option.bind_eq_bind,
      Option.bind_some, ih hcs.2 hrest, Nat.ofDigitChars_cons]

/-- A number that is too large for 16 bits is noticed, and so is a byte below that of `0`. -/
example : pushDigit? 3276#16 '7'.toUInt8 = some 32767#16 ∧
    pushDigit? 3276#16 '8'.toUInt8 = none ∧ pushDigit? 0#16 '/'.toUInt8 = none := by
  decide

/-! ### Groups of four digits -/

/-- Four digits. -/
structure IsFour (cs : List Char) : Prop where
  length : cs.length = 4
  digits : isDigits cs = true

/-- Any digits up to four are folded to their number. -/
theorem groupOf?_of_isDigits (hcs : isDigits cs = true) (hlength : cs.length ≤ 4) :
    groupOf? (cs.map Char.toUInt8) = some (BitVec.ofNat 16 (digitsValue cs)) := by
  have hpow : 10 ^ cs.length ≤ 10 ^ 4 := Nat.pow_le_pow_right (by decide) hlength
  apply foldlM_pushDigit? hcs
  omega

theorem digitsValue_le (hcs : isDigits cs = true) (hlength : cs.length ≤ 4) :
    digitsValue cs ≤ 9999 := by
  have hlt := digitsValue_lt hcs
  have hpow : 10 ^ cs.length ≤ 10 ^ 4 := Nat.pow_le_pow_right (by decide) hlength
  omega

/-- On the way through four digits every number is one of at most four digits. -/
theorem IsFour.exists_foldlM (h : IsFour cs) {front : List UInt8}
    (hfront : front <+: cs.map Char.toUInt8) :
    ∃ value, front.foldlM pushDigit? 0#16 = some value ∧ 0 ≤ value.toInt ∧ value.toInt ≤ 9999 := by
  -- the fold up to there is the whole fold of fewer digits
  obtain ⟨k, rfl⟩ : ∃ k, front = (cs.take k).map Char.toUInt8 := by
    refine ⟨front.length, ?_⟩
    rw [List.map_take]
    exact List.prefix_iff_eq_take.mp hfront
  have hdigits : isDigits (cs.take k) = true :=
    isDigits_of_subset h.digits (List.take_subset k cs)
  have hlength : (cs.take k).length ≤ 4 := (List.length_take_le' _ _).trans h.length.le
  have hvalue := digitsValue_le hdigits hlength
  refine ⟨_, groupOf?_of_isDigits hdigits hlength, ?_⟩
  rw [toInt_ofNat_of_lt (by omega)]
  omega

/-- Digits that fill whole groups fall into fours. -/
theorem exists_fours {k : Nat} (hcs : isDigits cs = true) (hlength : cs.length = 4 * k) :
    ∃ fours : List (List Char), fours.flatten = cs ∧ ∀ four ∈ fours, IsFour four := by
  obtain ⟨fours, rfl, hfours⟩ := exists_flatten_eq hlength
  refine ⟨fours, rfl, fun four hfour => ⟨hfours four hfour, ?_⟩⟩
  apply isDigits_of_subset hcs
  intro c hc
  exact List.mem_flatten_of_mem hfour hc

section Fours

variable {fours : List (List Char)}

theorem utf8_flatten (h : ∀ four ∈ fours, IsFour four) :
    utf8 fours.flatten = (fours.map (List.map Char.toUInt8)).flatten := by
  have hdigits : isDigits fours.flatten = true := by
    rw [isDigits, List.all_eq_true]
    intro c hc
    obtain ⟨four, hfour, hc⟩ := List.mem_flatten.mp hc
    exact List.all_eq_true.mp (h four hfour).digits c hc
  rw [utf8_of_isDigits hdigits, List.map_flatten]

/-- The chunks of fours are the bytes of each of them. -/
theorem toChunks_utf8_flatten (h : ∀ four ∈ fours, IsFour four) :
    (utf8 fours.flatten).toChunks 4 = fours.map (List.map Char.toUInt8) := by
  rw [utf8_flatten h]
  apply toChunks_flatten (by decide)
  intro chunk hchunk
  obtain ⟨four, hfour, rfl⟩ := List.mem_map.mp hchunk
  rw [List.length_map]
  exact (h four hfour).length

theorem groupValues_flatten (h : ∀ four ∈ fours, IsFour four) :
    groupValues fours.flatten = fours.map digitsValue := by
  induction fours with
  | nil => rfl
  | cons four fours ih =>
    obtain ⟨a, b, c, d, rest, rfl, hrest⟩ :=
      exists_cons_of_length (k := 0) (h four List.mem_cons_self).length
    obtain rfl : rest = [] := List.length_eq_zero_iff.mp hrest
    rw [List.flatten_cons, List.map_cons, ← ih fun f hf => h f (List.mem_cons_of_mem _ hf)]
    rfl

/-- Fours are folded to their groups. -/
theorem exists_mapM_groupOf? (h : ∀ four ∈ fours, IsFour four) :
    ∃ values, (fours.map (List.map Char.toUInt8)).mapM groupOf? = some values ∧
      values.map BitVec.toNat = fours.map digitsValue := by
  induction fours with
  | nil => exact ⟨[], rfl, rfl⟩
  | cons four fours ih =>
    have hfour := h four List.mem_cons_self
    obtain ⟨values, hvalues, hgroups⟩ := ih fun f hf => h f (List.mem_cons_of_mem _ hf)
    have hvalue := digitsValue_le hfour.digits hfour.length.le
    have hexact : (BitVec.ofNat 16 (digitsValue four)).toNat = digitsValue four := by
      rw [BitVec.toNat_ofNat]
      omega
    refine ⟨BitVec.ofNat 16 (digitsValue four) :: values, ?_, ?_⟩
    · rw [List.map_cons, List.mapM_cons, groupOf?_of_isDigits hfour.digits hfour.length.le, hvalues]
      rfl
    · rw [List.map_cons, List.map_cons, hexact, hgroups]

end Fours

/-! ### Grouping a decimal number -/

namespace DecimalText

/-- The digits before the point as they are grouped: without zeros in front, but for those that fill
the first group. -/
def wholeDigits (d : DecimalText) : List Char :=
  padding (d.whole.dropWhile (· == '0')).length ++ d.whole.dropWhile (· == '0')

/-- The digits after the point, and the zeros that fill the last group. -/
def fractionDigits (d : DecimalText) : List Char := d.fraction ++ padding d.fraction.length

/-- The digits on both sides of the point, one byte each. -/
def paddedBytes (d : DecimalText) : List UInt8 :=
  utf8 (NumericForm.alignedDigits (d.whole.dropWhile (· == '0')) d.fraction)

/-- The bytes of each group. -/
def chunks (d : DecimalText) : List (List UInt8) := d.paddedBytes.toChunks 4

/-- The weight of the first of all groups, in 32 bits. -/
def firstWeight? (d : DecimalText) : Option (BitVec 32) := do
  let count ← signedOfNat? 32 (d.wholeDigits.length / 4)
  subSigned? count 1#32

/-- The weight behind some groups of zero, in 32 bits. -/
def lowerWeight? (weight : BitVec 32) (zeros : Nat) : Option (BitVec 32) := do
  let zeros ← signedOfNat? 32 zeros
  subSigned? weight zeros

/-- The form of a decimal number, with groups of 16 bits and a weight of 32 bits. -/
def form? (d : DecimalText) : Option NumericForm := do
  let values ← d.chunks.mapM groupOf?
  let groups := values.map BitVec.toNat
  let first ← d.firstWeight?
  let weight ← lowerWeight? first (groups.takeWhile (· == 0)).length
  let sent := dropTrailingZeros (groups.dropWhile (· == 0))
  if sent.isEmpty then some ⟨false, 0, d.fraction.length, []⟩
  else some ⟨d.negative, weight.toInt, d.fraction.length, sent⟩

/-- The digits are grouped exactly, and no operation on the way overflows. -/
structure GroupsExactly (d : DecimalText) : Prop where
  /-- The digits fill whole groups, and their number is one of 32 bits. -/
  padded : 4 ∣ d.paddedBytes.length ∧ d.paddedBytes.length < 2 ^ 32
  /-- The point falls between two groups. -/
  point : ∃ before after, d.chunks = before ++ after ∧
    before.flatten = utf8 d.wholeDigits ∧ after.flatten = utf8 d.fractionDigits
  /-- No group is cut short. -/
  full : ∀ chunk ∈ d.chunks, chunk.length = 4
  /-- No byte is below that of `0`, and the difference is a digit. -/
  digits : ∀ chunk ∈ d.chunks, ∀ byte ∈ chunk,
    ∃ digit, subUnsigned? byte.toBitVec '0'.toUInt8.toBitVec = some digit ∧ digit.toNat ≤ 9
  /-- The fold over a group is in range after every byte. -/
  folds : ∀ chunk ∈ d.chunks, ∀ front, front <+: chunk →
    ∃ value, front.foldlM pushDigit? 0#16 = some value ∧ 0 ≤ value.toInt ∧ value.toInt ≤ 9999
  /-- The weight is exact before and after the groups of zero in front are left out. -/
  weights : ∃ first weight, d.firstWeight? = some first ∧ first.toInt = d.wholeGroups - 1 ∧
    lowerWeight? first (d.groups.takeWhile (· == 0)).length = some weight ∧
    weight.toInt = d.sentWeight
  /-- The result is the form that is written. -/
  form : d.form? = some (.ofDecimal d)

variable {d : DecimalText}

/-! ### Both sides of the point -/

theorem length_wholeDigits (d : DecimalText) : d.wholeDigits.length = 4 * d.wholeGroups := by
  rw [wholeDigits, List.length_append, length_padding_add]
  rfl

theorem length_fractionDigits (d : DecimalText) :
    d.fractionDigits.length = 4 * ((d.fraction.length + 3) / 4) := by
  rw [fractionDigits, List.length_append, Nat.add_comm, length_padding_add]

theorem length_paddedBytes (hw : isDigits d.whole = true) (hf : isDigits d.fraction = true) :
    d.paddedBytes.length = 4 * d.groups.length := by
  rw [paddedBytes, utf8_of_isDigits (isDigits_alignedDigits (isDigits_dropWhile hw) hf),
    List.length_map, length_alignedDigits, length_groups]
  rfl

/-- The groups on both sides of the point, four digits each. -/
structure Fours (d : DecimalText) (before after : List (List Char)) : Prop where
  whole : before.flatten = d.wholeDigits
  fraction : after.flatten = d.fractionDigits
  four : ∀ four ∈ before ++ after, IsFour four

theorem exists_fours_of_isDigits (hw : isDigits d.whole = true) (hf : isDigits d.fraction = true) :
    ∃ before after, d.Fours before after := by
  have hwhole : isDigits d.wholeDigits = true := by
    rw [wholeDigits, isDigits_append, isDigits_padding, isDigits_dropWhile hw]
    rfl
  have hfraction : isDigits d.fractionDigits = true := by
    rw [fractionDigits, isDigits_append, isDigits_padding, hf]
    rfl
  obtain ⟨before, hbefore, hfours⟩ := exists_fours hwhole d.length_wholeDigits
  obtain ⟨after, hafter, hfours'⟩ := exists_fours hfraction d.length_fractionDigits
  exact ⟨before, after, hbefore, hafter, List.forall_mem_append.mpr ⟨hfours, hfours'⟩⟩

namespace Fours

variable {before after : List (List Char)}

theorem flatten (h : d.Fours before after) :
    NumericForm.alignedDigits (d.whole.dropWhile (· == '0')) d.fraction =
      (before ++ after).flatten := by
  rw [List.flatten_append, h.whole, h.fraction]
  rfl

theorem chunks_eq (h : d.Fours before after) :
    d.chunks = (before ++ after).map (List.map Char.toUInt8) := by
  rw [chunks, paddedBytes, h.flatten, toChunks_utf8_flatten h.four]

theorem groups_eq (h : d.Fours before after) : d.groups = (before ++ after).map digitsValue := by
  rw [groups, h.flatten, groupValues_flatten h.four]

theorem exists_of_mem_chunks (h : d.Fours before after) {chunk : List UInt8}
    (hchunk : chunk ∈ d.chunks) : ∃ four, IsFour four ∧ four.map Char.toUInt8 = chunk := by
  rw [h.chunks_eq] at hchunk
  obtain ⟨four, hmem, heq⟩ := List.mem_map.mp hchunk
  exact ⟨four, h.four four hmem, heq⟩

/-- No chunk has digits from both sides of the point. -/
theorem exists_point (h : d.Fours before after) :
    ∃ before after, d.chunks = before ++ after ∧
      before.flatten = utf8 d.wholeDigits ∧ after.flatten = utf8 d.fractionDigits := by
  have hsides := List.forall_mem_append.mp h.four
  refine ⟨before.map (List.map Char.toUInt8), after.map (List.map Char.toUInt8), ?_, ?_, ?_⟩
  · rw [h.chunks_eq, List.map_append]
  · rw [← utf8_flatten hsides.1, h.whole]
  · rw [← utf8_flatten hsides.2, h.fraction]

theorem exists_values (h : d.Fours before after) :
    ∃ values, d.chunks.mapM groupOf? = some values ∧ values.map BitVec.toNat = d.groups := by
  rw [h.chunks_eq, h.groups_eq]
  exact exists_mapM_groupOf? h.four

end Fours

/-! ### The weight -/

theorem exists_firstWeight? (hcount : d.wholeGroups < 2 ^ 31) :
    ∃ first, d.firstWeight? = some first ∧ first.toInt = d.wholeGroups - 1 := by
  have hone : (1#32).toInt = 1 := by decide
  have hcast : (BitVec.ofNat 32 d.wholeGroups).toInt = d.wholeGroups := toInt_ofNat_of_lt hcount
  have hdiv : d.wholeDigits.length / 4 = d.wholeGroups := by
    rw [length_wholeDigits]
    omega
  obtain ⟨first, hfirst, hvalue⟩ :=
    exists_subSigned? (x := BitVec.ofNat 32 d.wholeGroups) (y := 1#32) (by decide)
      (by omega) (by omega)
  rw [hcast, hone] at hvalue
  refine ⟨first, ?_, hvalue⟩
  rw [firstWeight?, hdiv, signedOfNat?_of_lt hcount]
  exact hfirst

theorem exists_lowerWeight? (weight : BitVec 32) {zeros : Nat} (hzeros : zeros < 2 ^ 31)
    (hlow : -2 ^ 31 ≤ weight.toInt - zeros) :
    ∃ lowered, lowerWeight? weight zeros = some lowered ∧
      lowered.toInt = weight.toInt - zeros := by
  have hcast : (BitVec.ofNat 32 zeros).toInt = zeros := toInt_ofNat_of_lt hzeros
  have hweight : weight.toInt < 2 ^ 31 := weight.toInt_lt
  obtain ⟨lowered, hlowered, hvalue⟩ :=
    exists_subSigned? (x := weight) (y := BitVec.ofNat 32 zeros) (by decide)
      (by omega) (by omega)
  rw [hcast] at hvalue
  refine ⟨lowered, ?_, hvalue⟩
  rw [lowerWeight?, signedOfNat?_of_lt hzeros]
  exact hlowered

/-- Fewer than `2 ^ 31` digits are not many more than `2 ^ 29` groups, and the weight stays far from
the limits of 32 bits. -/
theorem exists_weights (hlength : d.whole.length + d.fraction.length < 2 ^ 31) :
    ∃ first weight, d.firstWeight? = some first ∧ first.toInt = d.wholeGroups - 1 ∧
      lowerWeight? first (d.groups.takeWhile (· == 0)).length = some weight ∧
      weight.toInt = d.sentWeight := by
  -- the groups of zero are some of all groups, and these are a quarter of the digits
  have hwhole := d.wholeGroups_le
  have hgroups := d.length_groups
  have hzeros := length_takeWhile_zero d.groups
  obtain ⟨first, hfirst, hvalue⟩ := d.exists_firstWeight? (by omega)
  obtain ⟨weight, hweight, hlowered⟩ :
      ∃ weight, lowerWeight? first (d.groups.takeWhile (· == 0)).length = some weight ∧
        weight.toInt = first.toInt - (d.groups.takeWhile (· == 0)).length :=
    exists_lowerWeight? first (by omega) (by omega)
  refine ⟨first, weight, hfirst, hvalue, hweight, ?_⟩
  rw [hlowered, hvalue, hzeros]
  rfl

/-! ### The form -/

/-- Once groups and weight are exact, the form is. -/
theorem form?_eq_some {values : List (BitVec 16)} {first weight : BitVec 32}
    (hvalues : d.chunks.mapM groupOf? = some values) (hgroups : values.map BitVec.toNat = d.groups)
    (hfirst : d.firstWeight? = some first)
    (hweight : lowerWeight? first (d.groups.takeWhile (· == 0)).length = some weight)
    (hexact : weight.toInt = d.sentWeight) : d.form? = some (.ofDecimal d) := by
  have hform : d.form? = if d.sent.isEmpty then some ⟨false, 0, d.fraction.length, []⟩
      else some ⟨d.negative, weight.toInt, d.fraction.length, d.sent⟩ := by
    simp only [form?, hvalues, Option.bind_eq_bind, Option.bind_some, hgroups, hfirst, hweight]
    rfl
  rw [hform, hexact]
  by_cases hsent : d.sent = []
  · rw [if_pos (List.isEmpty_iff.mpr hsent), ofDecimal_of_sent_eq_nil hsent]
  · rw [if_neg (mt List.isEmpty_iff.mp hsent), ofDecimal_of_sent_ne_nil hsent]

/-- Fewer than `2 ^ 31` digits are grouped exactly. -/
theorem groupsExactly (hw : isDigits d.whole = true) (hf : isDigits d.fraction = true)
    (hlength : d.whole.length + d.fraction.length < 2 ^ 31) : d.GroupsExactly := by
  obtain ⟨before, after, h⟩ := exists_fours_of_isDigits hw hf
  obtain ⟨values, hvalues, hgroups⟩ := h.exists_values
  obtain ⟨first, weight, hfirst, hfirstValue, hweight, hweightValue⟩ := exists_weights hlength
  exact
    { padded := by
        have hwhole := d.wholeGroups_le
        rw [length_paddedBytes hw hf, length_groups]
        omega
      point := h.exists_point
      full := by
        intro chunk hchunk
        obtain ⟨four, hfour, rfl⟩ := h.exists_of_mem_chunks hchunk
        rw [List.length_map]
        exact hfour.length
      digits := by
        intro chunk hchunk byte hbyte
        obtain ⟨four, hfour, rfl⟩ := h.exists_of_mem_chunks hchunk
        obtain ⟨c, hc, rfl⟩ := List.mem_map.mp hbyte
        have hdigit : c.isDigit = true := List.all_eq_true.mp hfour.digits c hc
        have hle := digit_le_nine hdigit
        refine ⟨_, subUnsigned?_of_isDigit hdigit, ?_⟩
        rw [BitVec.toNat_ofNat]
        omega
      folds := by
        intro chunk hchunk front hfront
        obtain ⟨four, hfour, rfl⟩ := h.exists_of_mem_chunks hchunk
        exact hfour.exists_foldlM hfront
      weights := ⟨first, weight, hfirst, hfirstValue, hweight, hweightValue⟩
      form := form?_eq_some hvalues hgroups hfirst hweight hweightValue }

/-- The parts of a number are together no longer than its text. -/
theorem length_add_length_le_of_parse? (h : parse? cs = some d) :
    d.whole.length + d.fraction.length ≤ cs.length := by
  obtain ⟨⟨-, hwhole, hfraction⟩, -⟩ := parse?_eq_some_iff.mp h
  obtain ⟨sign, hcs, -⟩ := exists_signText cs
  have hrest := congrArg List.length
    (List.takeWhile_append_dropWhile (p := (· != '.')) (l := (splitSign cs).2))
  have hlength := congrArg List.length hcs
  rw [List.length_append] at hrest hlength
  rw [hwhole, hfraction, List.length_drop]
  omega

end DecimalText

/-! ### At the limit -/

/-- Zeros behind a point. -/
def fractionText (places : Nat) : List Char := '.' :: List.replicate places '0'

theorem utf8ByteSize_fractionText (places : Nat) :
    (String.ofList (fractionText places)).utf8ByteSize = places + 1 := by
  have hpoint : String.utf8EncodeChar '.' = [46] := by decide
  rw [← length_utf8, utf8_eq_flatMap, fractionText, List.flatMap_cons, hpoint, ← utf8_eq_flatMap,
    utf8_of_isDigits (isDigits_replicate_zero places), List.length_append, List.length_map,
    List.length_replicate, Nat.add_comm]
  rfl

theorem parse?_fractionText {places : Nat} (hplaces : 0 < places) :
    DecimalText.parse? (fractionText places) = some ⟨false, [], List.replicate places '0'⟩ := by
  have hpoint : FractionText (fractionText places) (List.replicate places '0') := .point _
  have hsign := DecimalText.splitSign_unsigned hpoint (rfl : isDigits [] = true)
  obtain ⟨hwhole, hfraction⟩ := DecimalText.split_at_point hpoint (rfl : isDigits [] = true)
  rw [List.nil_append] at hsign hwhole hfraction
  rw [DecimalText.parse?_eq_some_iff, hsign]
  refine ⟨⟨rfl, hwhole.symm, hfraction.symm⟩, rfl, isDigits_replicate_zero places, ?_⟩
  rw [List.nil_append, ne_eq, List.replicate_eq_nil_iff]
  exact hplaces.ne'

/-! ### Grouping never overflows -/

/-- **Grouping never overflows.** Of every text below `2 ^ 31` bytes that writes a decimal number,
the digits fill groups of four bytes, and the point falls between two of them. No byte is below that
of `0`, the numbers of 16 bits to which the bytes of a group are folded stay between 0 and 9999, and
the weight in 32 bits is exact before and after the groups of zero in front are left out. So the
number has the form that is written. -/
theorem grouping_never_overflows (text : String) (d : DecimalText)
    (hsize : text.utf8ByteSize < 2 ^ 31) (hparse : DecimalText.parse? text.toList = some d) :
    d.GroupsExactly := by
  obtain ⟨hw, hf⟩ := DecimalText.isDigits_of_parse? hparse
  have hlength := DecimalText.length_add_length_le_of_parse? hparse
  have hbytes := length_le_utf8ByteSize text
  exact DecimalText.groupsExactly hw hf (by omega)

/-- Two numbers without an integer part: one whose first group is zero, and the longest one below
the limit, all of whose groups are. -/
theorem grouping_never_overflows_of_fractions :
    ("-000.0000678".utf8ByteSize < 2 ^ 31 ∧
      DecimalText.parse? "-000.0000678".toList = some ⟨true, "000".toList, "0000678".toList⟩ ∧
      DecimalText.form? ⟨true, "000".toList, "0000678".toList⟩ = some ⟨true, -2, 7, [6780]⟩) ∧
    ∃ d, (String.ofList (fractionText (2 ^ 31 - 2))).utf8ByteSize < 2 ^ 31 ∧
      DecimalText.parse? (String.ofList (fractionText (2 ^ 31 - 2))).toList = some d ∧
      d.GroupsExactly := by
  have hsize : "-000.0000678".utf8ByteSize < 2 ^ 31 := by decide
  have hparse : DecimalText.parse? "-000.0000678".toList =
      some ⟨true, "000".toList, "0000678".toList⟩ := by decide
  have hform : NumericForm.ofDecimal ⟨true, "000".toList, "0000678".toList⟩ =
      ⟨true, -2, 7, [6780]⟩ := by decide
  have hsize' : (String.ofList (fractionText (2 ^ 31 - 2))).utf8ByteSize < 2 ^ 31 := by
    rw [utf8ByteSize_fractionText]
    omega
  have hparse' : DecimalText.parse? (String.ofList (fractionText (2 ^ 31 - 2))).toList =
      some ⟨false, [], List.replicate (2 ^ 31 - 2) '0'⟩ := by
    rw [String.toList_ofList]
    exact parse?_fractionText (by omega)
  refine ⟨⟨hsize, hparse, ?_⟩, _, hsize', hparse', grouping_never_overflows _ _ hsize' hparse'⟩
  rw [← hform]
  exact (grouping_never_overflows _ _ hsize hparse).form

end BoundSql.Parameter
