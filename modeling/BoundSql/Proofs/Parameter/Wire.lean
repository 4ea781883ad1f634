import BoundSql.Proofs.Parameter.Encoder
import BoundSql.Parameter.Numeric
import Mathlib.Algebra.BigOperators.Fin
import Mathlib.Algebra.Order.Field.Power
import Mathlib.Algebra.Order.Field.Rat
import Mathlib.Tactic.Positivity

/-!
# Reading `NUMERIC` back

The receiver's side of the wire format: four fields of 16 bits, then as many groups as the first
field announces, each a signed number of 16 bits. The groups stand for the sum of the products
`group · 10000 ^ (weight - position)`.

A finite number whose fields fit is written as the bytes that are read back as its fields:

    run_writeForm_eq_ok : `writeForm form` succeeds ↔ `form.Fits`, and appends `form.bytes`
    read_bytes          : those bytes are read back, to the last one, as `form.wire`
-/

namespace BoundSql.Parameter

/-! ### The reader -/

/-- An unsigned number of two bytes, the most significant byte first. -/
def readWord : List UInt8 → Option (Nat × List UInt8)
  | high :: low :: rest => some (256 * high.toNat + low.toNat, rest)
  | _ => none

/-- A number of 16 bits in two's complement. -/
def signedWord (n : Nat) : Int := if n < 32768 then n else n - 65536

/-- As many signed numbers of 16 bits as there are groups. -/
def readGroups : Nat → List UInt8 → Option (List Int × List UInt8)
  | 0, bytes => some ([], bytes)
  | count + 1, bytes => do
    let (group, bytes) ← readWord bytes
    let (groups, bytes) ← readGroups count bytes
    some (signedWord group :: groups, bytes)

/-- A `NUMERIC` as it is received. -/
structure NumericWire where
  weight : Int
  sign : Nat
  scale : Nat
  groups : List Int
  deriving DecidableEq

namespace NumericWire

/-- Read a `NUMERIC` from the front of the bytes; a negative number of groups is refused. -/
def read (bytes : List UInt8) : Option (NumericWire × List UInt8) := do
  let (count, bytes) ← readWord bytes
  let (weight, bytes) ← readWord bytes
  let (sign, bytes) ← readWord bytes
  let (scale, bytes) ← readWord bytes
  if signedWord count < 0 then none
  else
    let (groups, bytes) ← readGroups (signedWord count).toNat bytes
    some (⟨signedWord weight, sign, scale, groups⟩, bytes)

/-- The number that groups in base 10000 stand for, the first of them at `weight`. -/
def groupSum (weight : Int) (groups : List Int) : ℚ :=
  ∑ i : Fin groups.length, (groups[i] : ℚ) * 10000 ^ (weight - i)

/-- The factor of a sign field; NaN has none. -/
def signFactor? (sign : Nat) : Option ℚ :=
  if sign = 0 then some 1 else if sign = 0x4000 then some (-1) else none

/-- The number that is received, unless it is NaN. -/
def value? (wire : NumericWire) : Option ℚ :=
  (signFactor? wire.sign).map (· * groupSum wire.weight wire.groups)

/-- There is one way to send each number with so many digits after the point: groups are digits in
base 10000, none at either end is zero, and zero is positive and has weight zero. -/
structure Canonical (wire : NumericWire) : Prop where
  bounds : ∀ group ∈ wire.groups, 0 ≤ group ∧ group ≤ 9999
  first : wire.groups.head? ≠ some 0
  last : wire.groups.getLast? ≠ some 0
  zero : wire.value? = some 0 → wire.groups = [] ∧ wire.weight = 0 ∧ wire.sign = 0

/-! ### Sums of groups -/

@[simp] theorem groupSum_nil (weight : Int) : groupSum weight [] = 0 := rfl

/-- The first group counts with the weight, those after it with one less. -/
theorem groupSum_cons (weight group : Int) (groups : List Int) :
    groupSum weight (group :: groups) =
      group * 10000 ^ weight + groupSum (weight - 1) groups := by
  unfold groupSum
  refine (Fin.sum_univ_succ (n := groups.length) _).trans ?_
  congr 1
  · simp
  · apply Finset.sum_congr rfl
    intro i _
    -- the positions behind the first one are shifted by one, and so is the weight
    have hexp : weight - ((i.succ : Fin (group :: groups).length) : Nat) =
        weight - 1 - (i : Nat) := by
      rw [Fin.val_succ]
      omega
    rw [hexp]
    rfl

theorem groupSum_append (weight : Int) (groups hs : List Int) :
    groupSum weight (groups ++ hs) =
      groupSum weight groups + groupSum (weight - groups.length) hs := by
  induction groups generalizing weight with
  | nil => simp
  | cons group groups ih =>
    have hexp : weight - 1 - (groups.length : Int) = weight - ((group :: groups).length : Nat) := by
      rw [List.length_cons]
      omega
    rw [List.cons_append, groupSum_cons, groupSum_cons, ih, hexp, add_assoc]

/-- Groups of zero stand for zero, wherever they are. -/
theorem groupSum_eq_zero {groups : List Int} (h : ∀ group ∈ groups, group = 0) (weight : Int) :
    groupSum weight groups = 0 := by
  induction groups generalizing weight with
  | nil => rfl
  | cons group groups ih =>
    have hgroup : group = 0 := h group List.mem_cons_self
    have hrest := ih fun g hg => h g (List.mem_cons_of_mem group hg)
    rw [groupSum_cons, hrest, hgroup, Int.cast_zero, zero_mul, add_zero]

theorem groupSum_nonneg {groups : List Int} (h : ∀ group ∈ groups, 0 ≤ group) (weight : Int) :
    0 ≤ groupSum weight groups := by
  induction groups generalizing weight with
  | nil => rfl
  | cons group groups ih =>
    have hgroup : 0 ≤ group := h group List.mem_cons_self
    have hrest := ih (fun g hg => h g (List.mem_cons_of_mem group hg)) (weight - 1)
    rw [groupSum_cons]
    positivity

/-- A first group that is not zero makes the number positive. -/
theorem groupSum_cons_pos {group : Int} {groups : List Int} (hgroup : 0 < group)
    (h : ∀ g ∈ groups, 0 ≤ g) (weight : Int) : 0 < groupSum weight (group :: groups) := by
  have hrest := groupSum_nonneg h (weight - 1)
  rw [groupSum_cons]
  positivity

end NumericWire

/-! ### Words -/

theorem toNat_ofNat_emod (n : Int) : (UInt8.ofNat (n % 256).toNat).toNat = (n % 256).toNat := by
  rw [UInt8.toNat_ofNat']
  omega

/-- A word is read back modulo `2 ^ 16`. -/
theorem readWord_bigEndian (n : Int) (rest : List UInt8) :
    readWord (bigEndian 2 n ++ rest) = some ((n % 65536).toNat, rest) := by
  rw [bigEndian_two, List.cons_append, List.cons_append, List.nil_append, readWord,
    toNat_ofNat_emod, toNat_ofNat_emod]
  have hsum : 256 * (n / 256 % 256).toNat + (n % 256).toNat = (n % 65536).toNat := by omega
  rw [hsum]

/-- A signed number of two bytes survives. -/
theorem signedWord_toNat_emod {n : Int} (hlow : -32768 ≤ n) (hhigh : n ≤ 32767) :
    signedWord (n % 65536).toNat = n := by
  unfold signedWord
  split <;> omega

/-- Groups survive, since they are far below `2 ^ 15`. -/
theorem readGroups_flatMap (groups : List Nat) (hgroups : ∀ group ∈ groups, group < 10000)
    (rest : List UInt8) :
    readGroups groups.length ((groups.flatMap fun group : Nat => bigEndian 2 group) ++ rest) =
      some (groups.map Nat.cast, rest) := by
  induction groups with
  | nil => rfl
  | cons group groups ih =>
    have hgroup : group < 10000 := hgroups group List.mem_cons_self
    have hsigned : signedWord ((group : Int) % 65536).toNat = group :=
      signedWord_toNat_emod (by omega) (by omega)
    have hrest := ih fun g hg => hgroups g (List.mem_cons_of_mem group hg)
    rw [List.length_cons, readGroups, List.flatMap_cons, List.append_assoc, readWord_bigEndian]
    simp only [Option.bind_eq_bind, Option.bind_some, hrest, hsigned, List.map_cons]

/-! ### The fields of a finite number -/

namespace NumericForm

/-- The fields fit in 16 bits. -/
structure Fits (form : NumericForm) : Prop where
  scale : form.scale ≤ 65535
  weight : -32768 ≤ form.weight ∧ form.weight ≤ 32767
  count : form.groups.length ≤ 32767

/-- The bytes of a finite number. -/
def bytes (form : NumericForm) : List UInt8 :=
  bigEndian 2 form.groups.length ++ (bigEndian 2 form.weight ++
    (bigEndian 2 (signField form.negative) ++ (bigEndian 2 form.scale ++
      form.groups.flatMap fun group : Nat => bigEndian 2 group)))

/-- What is received when the form is sent. -/
def wire (form : NumericForm) : NumericWire where
  weight := form.weight
  sign := (signField form.negative).toNat
  scale := form.scale
  groups := form.groups.map Nat.cast

/-- What is sent is received, to the last byte. -/
theorem read_bytes {form : NumericForm} (h : form.Fits)
    (hgroups : ∀ group ∈ form.groups, group < 10000) :
    NumericWire.read form.bytes = some (form.wire, []) := by
  have hcount : signedWord ((form.groups.length : Int) % 65536).toNat = form.groups.length :=
    signedWord_toNat_emod (by omega) (by have := h.count; omega)
  have hweight : signedWord (form.weight % 65536).toNat = form.weight :=
    signedWord_toNat_emod h.weight.1 h.weight.2
  have hscale : ((form.scale : Int) % 65536).toNat = form.scale := by
    have := h.scale
    omega
  have hsign : (signField form.negative % 65536).toNat = (signField form.negative).toNat := by
    cases form.negative <;> rfl
  have hread := readGroups_flatMap form.groups hgroups []
  rw [List.append_nil] at hread
  unfold NumericWire.read bytes
  simp only [readWord_bigEndian, Option.bind_eq_bind, Option.bind_some, hcount, hweight, hscale,
    hsign]
  rw [if_neg (by omega), Int.toNat_natCast, hread]
  rfl

end NumericForm

/-- Writing succeeds exactly if the fields fit, and appends the bytes of the form. -/
theorem run_writeForm_eq_ok {form : NumericForm} {buffer buffer' : Array UInt8} :
    (writeForm form).run buffer = .ok () buffer' ↔
      form.Fits ∧ buffer' = buffer ++ form.bytes := by
  have hemit : ∀ start : Array UInt8,
      (do emit16 form.groups.length
          emit16 form.weight
          emit16 (signField form.negative)
          emit16 form.scale
          form.groups.forM fun group : Nat => emit16 group : Encoder Unit).run start =
        .ok () (start ++ form.bytes) := by
    intro start
    rw [run_emit16_bind, run_emit16_bind, run_emit16_bind, run_emit16_bind, run_forM_emit16]
    simp only [append_bytes_append, NumericForm.bytes, List.append_assoc]
  unfold writeForm
  constructor
  · -- each check hands on its number and the buffer, so that the form's own fields are emitted
    intro h
    obtain ⟨_, _, hs, h₁⟩ := run_bind_eq_ok.mp h
    obtain ⟨hscale, rfl, rfl⟩ := run_unsigned_two_eq_ok.mp hs
    obtain ⟨_, _, hw, h₂⟩ := run_bind_eq_ok.mp h₁
    obtain ⟨hweight, rfl, rfl⟩ := run_signed_two_eq_ok.mp hw
    obtain ⟨_, _, hc, h₃⟩ := run_bind_eq_ok.mp h₂
    obtain ⟨hcount, rfl, rfl⟩ := run_signed_two_eq_ok.mp hc
    rw [hemit] at h₃
    cases h₃
    exact ⟨⟨by omega, hweight, by omega⟩, rfl⟩
  · rintro ⟨h, rfl⟩
    refine run_bind_eq_ok.mpr ⟨_, _, run_unsigned_two_eq_ok.mpr ⟨⟨by omega, ?_⟩, rfl, rfl⟩, ?_⟩
    · have := h.scale
      omega
    refine run_bind_eq_ok.mpr ⟨_, _, run_signed_two_eq_ok.mpr ⟨h.weight, rfl, rfl⟩, ?_⟩
    refine run_bind_eq_ok.mpr ⟨_, _, run_signed_two_eq_ok.mpr ⟨⟨by omega, ?_⟩, rfl, rfl⟩, ?_⟩
    · have := h.count
      omega
    exact hemit buffer

end BoundSql.Parameter
