import BoundSql.Proofs.Parameter.Wire
import Mathlib.Data.Int.Log
import Mathlib.Data.List.GetD
import Mathlib.Data.Rat.Floor
import Mathlib.Tactic.Linarith

/-!
# Groups by their position

Every rational number has a group in base 10000 at each position, a digit between 0 and 9999, and
position zero is that of the units. The groups of a sum of groups are the ones that were summed, and
its first position is the integer part of its logarithm in base 10000:

    groupAt_groupSum     :  the group at `weight - i` is the `i`-th one
    log_groupSum_cons    :  `Int.log 10000 (groupSum weight (group :: groups)) = weight`
-/

namespace BoundSql.Parameter

open NumericWire (groupSum groupSum_nil groupSum_cons groupSum_nonneg groupSum_cons_pos)

/-- The digit that a number has in base 10000 at a position. -/
def groupAt (q : ℚ) (position : Int) : Int := ⌊|q| / 10000 ^ position⌋ % 10000

/-- The number of positions from the first group that is not zero to the last one is no larger than
`n`: no two such groups are farther apart. -/
def SpansAtMost (q : ℚ) (n : Int) : Prop :=
  ∀ i j, groupAt q i ≠ 0 → groupAt q j ≠ 0 → i - j + 1 ≤ n

variable {q : ℚ} {position weight group : Int} {groups : List Int}

theorem zpow_pos_10000 (k : Int) : (0 : ℚ) < 10000 ^ k := by positivity

/-- Above the number all groups are zero. -/
theorem groupAt_eq_zero_of_lt (h : |q| < 10000 ^ position) : groupAt q position = 0 := by
  have hfloor : ⌊|q| / 10000 ^ position⌋ = 0 := by
    rw [Int.floor_eq_zero_iff]
    have hpos := zpow_pos_10000 position
    exact ⟨by positivity, (div_lt_one hpos).mpr h⟩
  rw [groupAt, hfloor, Int.zero_emod]

@[simp] theorem groupAt_zero (position : Int) : groupAt 0 position = 0 :=
  groupAt_eq_zero_of_lt (by rw [abs_zero]; exact zpow_pos_10000 position)

/-- Only the magnitude matters. -/
theorem groupAt_congr {r : ℚ} (h : |q| = |r|) (position : Int) :
    groupAt q position = groupAt r position := by
  rw [groupAt, groupAt, h]

/-! ### Groups of a sum -/

/-- Groups in base 10000 that start at a weight stay below the next power. -/
theorem groupSum_lt (h : ∀ g ∈ groups, 0 ≤ g ∧ g ≤ 9999) (weight : Int) :
    groupSum weight groups < 10000 ^ (weight + 1) := by
  induction groups generalizing weight with
  | nil => exact zpow_pos_10000 _
  | cons g gs ih =>
    have hrest := ih (fun g hg => h g (List.mem_cons_of_mem _ hg)) (weight - 1)
    rw [sub_add_cancel] at hrest
    have hg : (g : ℚ) ≤ 9999 := by exact_mod_cast (h g List.mem_cons_self).2
    have hpos := zpow_pos_10000 weight
    rw [groupSum_cons, zpow_add_one₀ (by norm_num)]
    nlinarith

/-- The first group is that at the weight. -/
theorem groupAt_groupSum_cons_self (h : ∀ g ∈ group :: groups, 0 ≤ g ∧ g ≤ 9999) (weight : Int) :
    groupAt (groupSum weight (group :: groups)) weight = group := by
  have hgroup := h group List.mem_cons_self
  have hgroups : ∀ g ∈ groups, 0 ≤ g ∧ g ≤ 9999 := fun g hg => h g (List.mem_cons_of_mem _ hg)
  have hnonneg := groupSum_nonneg (fun g hg => (h g hg).1) weight
  have hlow := groupSum_nonneg (fun g hg => (hgroups g hg).1) (weight - 1)
  have hhigh := groupSum_lt hgroups (weight - 1)
  rw [sub_add_cancel] at hhigh
  have hpos := zpow_pos_10000 weight
  have hfloor : ⌊groupSum weight (group :: groups) / 10000 ^ weight⌋ = group := by
    rw [Int.floor_eq_iff, le_div_iff₀ hpos, div_lt_iff₀ hpos, groupSum_cons]
    constructor <;> nlinarith
  rw [groupAt, abs_of_nonneg hnonneg, hfloor, Int.emod_eq_of_lt hgroup.1 (by omega)]

/-- Below the weight, the groups are those of the rest. -/
theorem groupAt_groupSum_cons_of_lt (h : ∀ g ∈ group :: groups, 0 ≤ g ∧ g ≤ 9999)
    (hlt : position < weight) :
    groupAt (groupSum weight (group :: groups)) position =
      groupAt (groupSum (weight - 1) groups) position := by
  have hnonneg := groupSum_nonneg (fun g hg => (h g hg).1) weight
  have hrest := groupSum_nonneg (fun g hg => (h g (List.mem_cons_of_mem _ hg)).1) (weight - 1)
  obtain ⟨n, hn⟩ := Int.eq_ofNat_of_zero_le (show 0 ≤ weight - position - 1 by omega)
  -- the first group counts as a multiple of 10000 at the position
  have hshift : groupSum weight (group :: groups) / 10000 ^ position =
      ((10000 * (group * 10000 ^ n) : Int) : ℚ) +
        groupSum (weight - 1) groups / 10000 ^ position := by
    have hweight : weight = (n : Int) + 1 + position := by omega
    have hpow : (10000 : ℚ) ^ weight = 10000 ^ n * 10000 * 10000 ^ position := by
      rw [hweight, zpow_add₀ (by norm_num), zpow_add_one₀ (by norm_num), zpow_natCast]
    have hne : (10000 : ℚ) ^ position ≠ 0 := (zpow_pos_10000 position).ne'
    rw [groupSum_cons, add_div, hpow, ← mul_assoc, mul_div_cancel_right₀ _ hne]
    push_cast
    ring
  rw [groupAt, groupAt, abs_of_nonneg hnonneg, abs_of_nonneg hrest, hshift, Int.floor_intCast_add,
    Int.add_emod, Int.mul_emod_right, zero_add, Int.emod_emod_of_dvd _ (dvd_refl _)]

/-- The groups of a sum are the groups that were summed, and zero behind the last of them. -/
theorem groupAt_groupSum (h : ∀ g ∈ groups, 0 ≤ g ∧ g ≤ 9999) (weight : Int) (i : Nat) :
    groupAt (groupSum weight groups) (weight - i) = groups.getD i 0 := by
  induction groups generalizing weight i with
  | nil => exact groupAt_zero _
  | cons g gs ih =>
    cases i with
    | zero =>
      rw [Nat.cast_zero, sub_zero, groupAt_groupSum_cons_self h]
      rfl
    | succ i =>
      have hposition : weight - ((i + 1 : Nat) : Int) = weight - 1 - i := by omega
      rw [groupAt_groupSum_cons_of_lt h (by omega), hposition,
        ih (fun g hg => h g (List.mem_cons_of_mem _ hg))]
      rfl

/-- Before the first group there is nothing but zero. -/
theorem groupAt_groupSum_of_lt (h : ∀ g ∈ groups, 0 ≤ g ∧ g ≤ 9999) (hlt : weight < position) :
    groupAt (groupSum weight groups) position = 0 := by
  apply groupAt_eq_zero_of_lt
  rw [abs_of_nonneg (groupSum_nonneg (fun g hg => (h g hg).1) weight)]
  calc groupSum weight groups < 10000 ^ (weight + 1) := groupSum_lt h weight
    _ ≤ 10000 ^ position := zpow_le_zpow_right₀ (by norm_num) (by omega)

/-- Groups that are not zero at either end span as many positions as there are groups. -/
theorem spansAtMost_groupSum_iff {n : Int} (h : ∀ g ∈ groups, 0 ≤ g ∧ g ≤ 9999)
    (hne : groups ≠ []) (hfirst : groups.head? ≠ some 0) (hlast : groups.getLast? ≠ some 0) :
    SpansAtMost (groupSum weight groups) n ↔ groups.length ≤ n := by
  have hlength : 0 < groups.length := List.length_pos_iff.mpr hne
  constructor
  · intro hspan
    have hat (i : Nat) (hi : i < groups.length) :
        groupAt (groupSum weight groups) (weight - i) = groups[i] := by
      rw [groupAt_groupSum h, List.getD_eq_getElem _ _ hi]
    have hhead : groups[0] ≠ 0 := by
      rw [List.head?_eq_getElem?, List.getElem?_eq_getElem hlength] at hfirst
      exact fun hzero => hfirst (congrArg some hzero)
    have hback : groups[groups.length - 1] ≠ 0 := by
      rw [List.getLast?_eq_getElem?, List.getElem?_eq_getElem (by omega)] at hlast
      exact fun hzero => hlast (congrArg some hzero)
    have hfar := hspan (weight - (0 : Nat)) (weight - (groups.length - 1 : Nat))
      (by rw [hat 0 hlength]; exact hhead) (by rw [hat _ (by omega)]; exact hback)
    omega
  · -- a group that is not zero is one of the groups
    have hplace (k : Int) (hk : groupAt (groupSum weight groups) k ≠ 0) :
        k ≤ weight ∧ weight - k < groups.length := by
      have hle : k ≤ weight := by
        by_contra hlt
        exact hk (groupAt_groupSum_of_lt h (by omega))
      refine ⟨hle, ?_⟩
      by_contra hbehind
      apply hk
      have hposition : k = weight - ((weight - k).toNat : Nat) := by omega
      rw [hposition, groupAt_groupSum h, List.getD_eq_default _ _ (by omega)]
    intro hcount i j hi hj
    have := hplace i hi
    have := hplace j hj
    omega

/-- The first group is at the integer part of the logarithm. -/
theorem log_groupSum_cons (hgroup : 0 < group) (h : ∀ g ∈ group :: groups, 0 ≤ g ∧ g ≤ 9999)
    (weight : Int) : Int.log 10000 (groupSum weight (group :: groups)) = weight := by
  have hgroups : ∀ g ∈ groups, 0 ≤ g := fun g hg => (h g (List.mem_cons_of_mem _ hg)).1
  have hpos := groupSum_cons_pos hgroup hgroups weight
  have hlow : ((10000 : Nat) : ℚ) ^ weight ≤ groupSum weight (group :: groups) := by
    have hrest := groupSum_nonneg hgroups (weight - 1)
    have hone : (1 : ℚ) ≤ group := by exact_mod_cast hgroup
    have hpow := zpow_pos_10000 weight
    rw [groupSum_cons]
    push_cast
    nlinarith
  have hhigh : groupSum weight (group :: groups) < ((10000 : Nat) : ℚ) ^ (weight + 1) := by
    exact_mod_cast groupSum_lt h weight
  have hle := (Int.zpow_le_iff_le_log (by norm_num) hpos).mp hlow
  have hlt := (Int.lt_zpow_iff_log_lt (by norm_num) hpos).mp hhigh
  omega

end BoundSql.Parameter
