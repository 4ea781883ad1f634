import BoundSql.Proofs.Number.Digits
import BoundSql.Proofs.Parameter.DecimalText
import BoundSql.Proofs.Parameter.Wire
import Mathlib.Data.List.DropRight
import Mathlib.Tactic.FieldSimp

/-!
# Decimal numbers in base 10000

The digits of a decimal number, filled up to whole groups on both sides of the point, stand for the
same number as their groups of four: four digits shift by one power of 10000. Leaving out groups of
zero at the front moves the weight, leaving them out at the end moves nothing. So the form of a
decimal number stands for that number (`value?_wire_ofDecimal`), and it is the canonical one
(`canonical_wire_ofDecimal`).
-/

namespace BoundSql.Parameter

open Number

/-! ### Whole groups -/

/-- Padding fills up to the next multiple of four. -/
theorem length_padding_add (n : Nat) : (padding n).length + n = 4 * ((n + 3) / 4) := by
  rw [padding, List.length_replicate]
  omega

theorem isDigits_padding (n : Nat) : isDigits (padding n) = true := isDigits_replicate_zero _

theorem digitsValue_padding_append (n : Nat) (cs : List Char) :
    digitsValue (padding n ++ cs) = digitsValue cs := digitsValue_zeros_append _ cs

theorem digitsValue_append_padding (cs : List Char) (n : Nat) :
    digitsValue (cs ++ padding n) = digitsValue cs * 10 ^ (padding n).length := by
  rw [padding, digitsValue_append_zeros, List.length_replicate]

/-- Groups of four digits are below 10000. -/
theorem groupValues_lt {cs : List Char} (h : isDigits cs = true) :
    ∀ group ∈ groupValues cs, group < 10000 := by
  fun_induction groupValues cs with
  | case1 a b c d cs ih =>
    have hsplit : isDigits [a, b, c, d] = true ∧ isDigits cs = true := by
      rw [← Bool.and_eq_true, ← isDigits_append]
      exact h
    intro group hgroup
    rcases List.mem_cons.mp hgroup with rfl | hmem
    · have hlt := digitsValue_lt hsplit.1
      have h4 : 10 ^ [a, b, c, d].length = 10000 := by norm_num
      rwa [h4] at hlt
    · exact ih hsplit.2 group hmem
  | case2 cs =>
    intro group hgroup
    cases hgroup

theorem exists_cons_of_length {k : Nat} {cs : List Char} (h : cs.length = 4 * (k + 1)) :
    ∃ a b c d ds, cs = a :: b :: c :: d :: ds ∧ ds.length = 4 * k := by
  match cs, h with
  | a :: b :: c :: d :: ds, h =>
    refine ⟨a, b, c, d, ds, rfl, ?_⟩
    simp only [List.length_cons] at h
    omega

theorem length_groupValues {k : Nat} {cs : List Char} (h : cs.length = 4 * k) :
    (groupValues cs).length = k := by
  induction k generalizing cs with
  | zero =>
    rw [List.length_eq_zero_iff.mp h]
    rfl
  | succ k ih =>
    obtain ⟨a, b, c, d, ds, rfl, hds⟩ := exists_cons_of_length h
    rw [groupValues, List.length_cons, ih hds]

/-- The groups of `4 k` digits, the last of them at weight `weight + 1 - k`. -/
theorem groupSum_groupValues {k : Nat} {cs : List Char} (h : cs.length = 4 * k) (weight : Int) :
    NumericWire.groupSum weight ((groupValues cs).map Nat.cast) =
      digitsValue cs * 10000 ^ (weight + 1 - k) := by
  induction k generalizing cs weight with
  | zero =>
    rw [List.length_eq_zero_iff.mp h]
    simp [groupValues]
  | succ k ih =>
    obtain ⟨a, b, c, d, cs, rfl, hlen⟩ := exists_cons_of_length h
    -- the first four digits stand before as many groups as there are left
    have hvalue : digitsValue (a :: b :: c :: d :: cs) =
        digitsValue [a, b, c, d] * 10000 ^ k + digitsValue cs := by
      have happend := digitsValue_append [a, b, c, d] cs
      rw [hlen, Nat.pow_mul] at happend
      exact happend
    have hfirst : (10000 : ℚ) ^ weight = 10000 ^ k * 10000 ^ (weight - k) := by
      rw [← zpow_natCast, ← zpow_add₀ (by norm_num)]
      congr 1
      omega
    have hrest : weight - 1 + 1 - (k : Int) = weight - k := by omega
    have hexp : weight + 1 - ((k + 1 : Nat) : Int) = weight - k := by omega
    rw [groupValues, List.map_cons, NumericWire.groupSum_cons, ih hlen, hvalue, hrest, hexp, hfirst]
    push_cast
    ring

/-! ### Groups of zero -/

theorem dropTrailingZeros_eq (groups : List Nat) :
    dropTrailingZeros groups = groups.rdropWhile (· == 0) := rfl

theorem cast_eq_zero {groups : List Nat} (h : ∀ g ∈ groups, (g == 0) = true) :
    ∀ group ∈ groups.map (Nat.cast : Nat → Int), group = 0 := by
  intro group hgroup
  obtain ⟨g, hg, rfl⟩ := List.mem_map.mp hgroup
  rw [beq_iff_eq.mp (h g hg), Nat.cast_zero]

/-- As many groups of zero are at the front as are left out there. -/
theorem length_takeWhile_zero (groups : List Nat) :
    (groups.takeWhile (· == 0)).length =
      groups.length - (groups.dropWhile (· == 0)).length := by
  have hsplit := List.takeWhile_append_dropWhile (p := (· == 0)) (l := groups)
  have hlength := congrArg List.length hsplit
  rw [List.length_append] at hlength
  omega

/-- Groups of zero at the front count for nothing. -/
theorem groupSum_dropWhile_zero (weight : Int) (groups : List Nat) :
    NumericWire.groupSum (weight - (groups.length - (groups.dropWhile (· == 0)).length : Nat))
        ((groups.dropWhile (· == 0)).map Nat.cast) =
      NumericWire.groupSum weight (groups.map Nat.cast) := by
  have hsplit := List.takeWhile_append_dropWhile (p := (· == 0)) (l := groups)
  have hlen := length_takeWhile_zero groups
  have hzero := cast_eq_zero fun _ hg => List.mem_takeWhile_imp (p := (· == 0)) (l := groups) hg
  conv_rhs => rw [← hsplit, List.map_append, NumericWire.groupSum_append,
    NumericWire.groupSum_eq_zero hzero, zero_add, List.length_map, hlen]

/-- Groups of zero at the end count for nothing. -/
theorem groupSum_dropTrailingZeros (weight : Int) (groups : List Nat) :
    NumericWire.groupSum weight ((dropTrailingZeros groups).map Nat.cast) =
      NumericWire.groupSum weight (groups.map Nat.cast) := by
  have hsplit := List.rdropWhile_append_rtakeWhile (p := (· == 0)) (l := groups)
  have hzero := cast_eq_zero fun _ hg => List.mem_rtakeWhile_imp (p := (· == 0)) (l := groups) hg
  conv_rhs => rw [← hsplit, List.map_append, NumericWire.groupSum_append,
    NumericWire.groupSum_eq_zero hzero, add_zero, ← dropTrailingZeros_eq]

/-- The first group that is left is not zero. -/
theorem head?_dropTrailingZeros_dropWhile_zero (groups : List Nat) :
    (dropTrailingZeros (groups.dropWhile (· == 0))).head? ≠ some 0 := by
  intro h
  have hprefix : dropTrailingZeros (groups.dropWhile (· == 0)) <+: groups.dropWhile (· == 0) := by
    rw [dropTrailingZeros_eq]
    exact List.rdropWhile_prefix _ _
  have hhead : (groups.dropWhile (· == 0)).head? = some 0 := by
    obtain ⟨zeros, hzeros⟩ := hprefix
    rw [← hzeros, List.head?_append, h]
    rfl
  have hnot := List.head?_dropWhile_not (· == 0) groups
  rw [hhead] at hnot
  exact absurd hnot (by decide)

/-- The last group that is left is not zero. -/
theorem getLast?_dropTrailingZeros (groups : List Nat) :
    (dropTrailingZeros groups).getLast? ≠ some 0 := by
  intro h
  rw [dropTrailingZeros_eq] at h
  have hne : groups.rdropWhile (· == 0) ≠ [] := by
    intro hnil
    rw [hnil] at h
    cases h
  have hnot := List.rdropWhile_last_not (· == 0) groups hne
  rw [List.getLast?_eq_some_getLast hne] at h
  rw [Option.some.inj h] at hnot
  exact hnot rfl

/-! ### The form of a decimal number -/

namespace DecimalText

/-- The groups that the digits before the point fill. -/
def wholeGroups (d : DecimalText) : Nat := ((d.whole.dropWhile (· == '0')).length + 3) / 4

/-- All groups, from the first digit that is not zero to the last digit. -/
def groups (d : DecimalText) : List Nat :=
  groupValues (NumericForm.alignedDigits (d.whole.dropWhile (· == '0')) d.fraction)

/-- The groups that are sent. -/
def sent (d : DecimalText) : List Nat := dropTrailingZeros (d.groups.dropWhile (· == 0))

/-- The weight of the first group that is sent. -/
def sentWeight (d : DecimalText) : Int :=
  d.wholeGroups - 1 - (d.groups.length - (d.groups.dropWhile (· == 0)).length : Nat)

variable {d : DecimalText}

theorem ofDecimal_of_sent_eq_nil (h : d.sent = []) :
    NumericForm.ofDecimal d = ⟨false, 0, d.fraction.length, []⟩ := by
  have hempty : d.sent.isEmpty = true := List.isEmpty_iff.mpr h
  exact if_pos hempty

theorem ofDecimal_of_sent_ne_nil (h : d.sent ≠ []) :
    NumericForm.ofDecimal d = ⟨d.negative, d.sentWeight, d.fraction.length, d.sent⟩ := by
  have hempty : ¬ d.sent.isEmpty = true := by
    rw [List.isEmpty_iff]
    exact h
  exact if_neg hempty

theorem groups_ofDecimal (d : DecimalText) : (NumericForm.ofDecimal d).groups = d.sent := by
  by_cases h : d.sent = []
  · rw [ofDecimal_of_sent_eq_nil h, h]
  · rw [ofDecimal_of_sent_ne_nil h]

theorem scale_ofDecimal (d : DecimalText) :
    (NumericForm.ofDecimal d).scale = d.fraction.length := by
  by_cases h : d.sent = []
  · rw [ofDecimal_of_sent_eq_nil h]
  · rw [ofDecimal_of_sent_ne_nil h]

/-! ### Its number -/

/-- The digits fill whole groups on both sides of the point. -/
theorem length_alignedDigits (whole fraction : List Char) :
    (NumericForm.alignedDigits whole fraction).length =
      4 * ((whole.length + 3) / 4 + (fraction.length + 3) / 4) := by
  have hwhole := length_padding_add whole.length
  have hfraction := length_padding_add fraction.length
  simp only [NumericForm.alignedDigits, List.length_append]
  omega

theorem length_groups (d : DecimalText) :
    d.groups.length = d.wholeGroups + (d.fraction.length + 3) / 4 :=
  length_groupValues (length_alignedDigits _ _)

theorem wholeGroups_le (d : DecimalText) : d.wholeGroups ≤ (d.whole.length + 3) / 4 := by
  have hle : (d.whole.dropWhile (· == '0')).length ≤ d.whole.length := List.length_dropWhile_le _ _
  rw [wholeGroups]
  omega

theorem isDigits_alignedDigits {whole fraction : List Char} (hw : isDigits whole = true)
    (hf : isDigits fraction = true) : isDigits (NumericForm.alignedDigits whole fraction) = true := by
  simp only [NumericForm.alignedDigits, isDigits_append, isDigits_padding, hw, hf, Bool.and_self]

/-- Padding after the point shifts the digits. -/
theorem digitsValue_alignedDigits (whole fraction : List Char) :
    digitsValue (NumericForm.alignedDigits whole fraction) =
      (digitsValue whole * 10 ^ fraction.length + digitsValue fraction) *
        10 ^ (padding fraction.length).length := by
  have hpad : (fraction ++ padding fraction.length).length =
      fraction.length + (padding fraction.length).length := List.length_append
  rw [NumericForm.alignedDigits, digitsValue_append, digitsValue_padding_append, hpad,
    digitsValue_append_padding]
  ring

/-- The groups stand for the number without its sign. -/
theorem groupSum_groups (d : DecimalText) :
    NumericWire.groupSum (d.wholeGroups - 1) (d.groups.map Nat.cast) = d.magnitude := by
  have hlen := length_alignedDigits (d.whole.dropWhile (· == '0')) d.fraction
  have hexp : (d.wholeGroups : Int) - 1 + 1 -
      (((d.whole.dropWhile (· == '0')).length + 3) / 4 + (d.fraction.length + 3) / 4 : Nat) =
        -((d.fraction.length + 3) / 4 : Nat) := by
    unfold wholeGroups
    omega
  -- the groups after the point hold the fraction and its padding
  have hshift : (10000 : ℚ) ^ ((d.fraction.length + 3) / 4) =
      10 ^ d.fraction.length * 10 ^ (padding d.fraction.length).length := by
    have hpad := length_padding_add d.fraction.length
    calc (10000 : ℚ) ^ ((d.fraction.length + 3) / 4)
        = (10 ^ 4) ^ ((d.fraction.length + 3) / 4) := by norm_num
      _ = 10 ^ (4 * ((d.fraction.length + 3) / 4)) := (pow_mul _ _ _).symm
      _ = 10 ^ (d.fraction.length + (padding d.fraction.length).length) := by
        rw [← hpad, Nat.add_comm]
      _ = 10 ^ d.fraction.length * 10 ^ (padding d.fraction.length).length := pow_add _ _ _
  rw [groups, groupSum_groupValues hlen, hexp, zpow_neg, zpow_natCast, hshift,
    digitsValue_alignedDigits, digitsValue_dropWhile_zero, magnitude]
  push_cast
  field_simp

theorem groupSum_sent (d : DecimalText) :
    NumericWire.groupSum d.sentWeight (d.sent.map Nat.cast) = d.magnitude := by
  rw [sent, groupSum_dropTrailingZeros, sentWeight, groupSum_dropWhile_zero, groupSum_groups]

theorem factor_ne_zero (d : DecimalText) : d.factor ≠ 0 := by
  unfold factor
  split <;> norm_num

/-- A form without groups is sent for zero only. -/
theorem magnitude_eq_zero_iff (d : DecimalText) : d.magnitude = 0 ↔ d.sent = [] := by
  have hsum := groupSum_sent d
  constructor
  · intro hzero
    match hsent : d.sent with
    | [] => rfl
    | group :: groups =>
      -- the first group that is sent makes the sum positive
      have hgroup : group ≠ 0 := by
        rintro rfl
        exact head?_dropTrailingZeros_dropWhile_zero d.groups (congrArg List.head? hsent)
      have hgroups : ∀ g ∈ groups.map (Nat.cast : Nat → Int), 0 ≤ g := by
        intro g hg
        obtain ⟨n, -, rfl⟩ := List.mem_map.mp hg
        exact Int.natCast_nonneg n
      have hpos : 0 < NumericWire.groupSum d.sentWeight (group :: groups.map Nat.cast) :=
        NumericWire.groupSum_cons_pos (by omega) hgroups d.sentWeight
      rw [hsent, List.map_cons, hzero] at hsum
      exact absurd hsum hpos.ne'
  · intro hnil
    rw [hnil] at hsum
    exact hsum.symm

end DecimalText

/-! ### What is received -/

namespace NumericForm

theorem value?_wire (form : NumericForm) :
    form.wire.value? = some ((if form.negative then -1 else 1) *
      NumericWire.groupSum form.weight (form.groups.map Nat.cast)) := by
  have hsign : NumericWire.signFactor? (signField form.negative).toNat =
      some (if form.negative then -1 else 1) := by
    cases form.negative <;> rfl
  rw [NumericWire.value?, wire, hsign]
  rfl

/-- The form of a decimal number stands for it. -/
theorem value?_wire_ofDecimal (d : DecimalText) : (ofDecimal d).wire.value? = some d.value := by
  rw [value?_wire]
  by_cases h : d.sent = []
  · -- zero loses its sign, which makes no difference to its value
    have hzero : d.magnitude = 0 := d.magnitude_eq_zero_iff.mpr h
    rw [DecimalText.ofDecimal_of_sent_eq_nil h, DecimalText.value, hzero]
    simp
  · rw [DecimalText.ofDecimal_of_sent_ne_nil h, DecimalText.groupSum_sent]
    rfl

theorem scale_wire_ofDecimal (d : DecimalText) :
    (ofDecimal d).wire.scale = d.fraction.length := d.scale_ofDecimal

theorem ofDecimal_groups_lt {d : DecimalText} (hw : isDigits d.whole = true)
    (hf : isDigits d.fraction = true) : ∀ group ∈ (ofDecimal d).groups, group < 10000 := by
  intro group hgroup
  rw [DecimalText.groups_ofDecimal] at hgroup
  have hall : ∀ g ∈ d.groups, g < 10000 :=
    groupValues_lt (DecimalText.isDigits_alignedDigits (isDigits_dropWhile hw) hf)
  have hfirst : group ∈ d.groups.dropWhile (· == 0) := by
    rw [DecimalText.sent, dropTrailingZeros_eq] at hgroup
    exact (List.rdropWhile_prefix _ _).subset hgroup
  exact hall group ((List.dropWhile_sublist _).subset hfirst)

theorem canonical_wire_ofDecimal {d : DecimalText} (hw : isDigits d.whole = true)
    (hf : isDigits d.fraction = true) : (ofDecimal d).wire.Canonical where
  bounds := by
    intro group hgroup
    obtain ⟨g, hg, rfl⟩ := List.mem_map.mp hgroup
    have hlt := ofDecimal_groups_lt hw hf g hg
    omega
  first := by
    intro h
    rw [wire, DecimalText.groups_ofDecimal, List.head?_map, Option.map_eq_some_iff] at h
    obtain ⟨g, hg, hzero⟩ := h
    obtain rfl : g = 0 := by exact_mod_cast hzero
    exact head?_dropTrailingZeros_dropWhile_zero d.groups hg
  last := by
    intro h
    rw [wire, DecimalText.groups_ofDecimal, List.getLast?_map, Option.map_eq_some_iff] at h
    obtain ⟨g, hg, hzero⟩ := h
    obtain rfl : g = 0 := by exact_mod_cast hzero
    exact getLast?_dropTrailingZeros (d.groups.dropWhile (· == 0)) hg
  zero := by
    intro h
    rw [value?_wire_ofDecimal, Option.some.injEq, DecimalText.value] at h
    have hzero : d.magnitude = 0 := (mul_eq_zero.mp h).resolve_left d.factor_ne_zero
    rw [DecimalText.ofDecimal_of_sent_eq_nil (d.magnitude_eq_zero_iff.mp hzero)]
    exact ⟨rfl, rfl, rfl⟩

end NumericForm

end BoundSql.Parameter
