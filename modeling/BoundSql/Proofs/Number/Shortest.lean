import BoundSql.Proofs.Number.Rounding

/-!
# The shortest decimal, and whole numbers

The search for the shortest decimal of a magnitude tries one grid after the other, from coarse to
fine. On a grid it finds a point of the magnitude's interval if there is one, and then the nearest
(`onGrid?_spec`), and it stops at the first grid that has one (`coarsest_spec`).

For the numbers between 2⁶³ and 2⁶⁴ the shortest decimal is again a whole number, so what is
written for such a number is the shortest whole number that is read as the same word
(`exists_isShortest`). The number is written with its own digits only if it is that one itself
(`text_ofInt_eq_iff`).
-/

namespace BoundSql.Number

/-! ### The points on a grid -/

/-- Of two numbers `y` is the nearer one to the centre, or the greater of two equally far from it.
-/
def IsNearer (centre : Int) (y z : Nat) : Prop :=
  (centre - y).natAbs ≤ (centre - z).natAbs ∧
    ((centre - y).natAbs = (centre - z).natAbs → z ≤ y)

theorem IsNearer.antisymm {centre : Int} {y z : Nat} (hyz : IsNearer centre y z)
    (hzy : IsNearer centre z y) : y = z := by
  obtain ⟨hle, htie⟩ := hyz
  obtain ⟨hge, htie'⟩ := hzy
  omega

namespace RoundingInterval

/-- The unit of the interval, on the scale on which it is compared with multiples of `10 ^ e`. -/
def unit (r : RoundingInterval) (e : Int) : Nat := pow2 r.exponent.toNat * pow10 (-e).toNat

/-- The distance of two multiples of `10 ^ e`, on the same scale. -/
def step (r : RoundingInterval) (e : Int) : Nat := pow10 e.toNat * pow2 (-r.exponent).toNat

/-- The point below the middle of the interval. -/
def below (r : RoundingInterval) (e : Int) : Nat := r.mid * r.unit e / r.step e

/-- The multiple `c · 10 ^ e` belongs to the interval. -/
def HasPoint (r : RoundingInterval) (e : Int) (c : Nat) : Prop :=
  r.Contains (r.unit e) (c * r.step e)

instance (r : RoundingInterval) (e : Int) (c : Nat) : Decidable (r.HasPoint e c) :=
  inferInstanceAs (Decidable (r.Contains _ _))

theorem onGrid?_eq (r : RoundingInterval) (e : Int) :
    r.onGrid? e =
      if r.HasPoint e (r.below e) then
        if r.HasPoint e (r.below e + 1) then
          if 2 * (r.mid * r.unit e - r.below e * r.step e) < r.step e then some ⟨r.below e, e⟩
          else some ⟨r.below e + 1, e⟩
        else some ⟨r.below e, e⟩
      else if r.HasPoint e (r.below e + 1) then some ⟨r.below e + 1, e⟩
      else none := by
  have hpoint {c : Nat} {b : Bool} (h : (if r.closed then
        decide (r.low * r.unit e ≤ c * r.step e) && decide (c * r.step e ≤ r.high * r.unit e)
      else decide (r.low * r.unit e < c * r.step e) && decide (c * r.step e < r.high * r.unit e)) =
        b) : decide (r.HasPoint e c) = b := by
    rw [← h]
    simp only [HasPoint, Contains]
    split <;> simp only [Bool.decide_and]
  rw [onGrid?]
  dsimp only
  split
  · next hbelow habove =>
    have hbelow : r.HasPoint e (r.below e) := of_decide_eq_true (hpoint hbelow)
    have habove : r.HasPoint e (r.below e + 1) := of_decide_eq_true (hpoint habove)
    rw [if_pos hbelow, if_pos habove]
    exact apply_ite (fun c => some (Decimal.mk c e)) _ _ _
  · next hbelow habove =>
    have hbelow : r.HasPoint e (r.below e) := of_decide_eq_true (hpoint hbelow)
    have habove : ¬r.HasPoint e (r.below e + 1) := of_decide_eq_false (hpoint habove)
    rw [if_pos hbelow, if_neg habove]
    rfl
  · next hbelow habove =>
    have hbelow : ¬r.HasPoint e (r.below e) := of_decide_eq_false (hpoint hbelow)
    have habove : r.HasPoint e (r.below e + 1) := of_decide_eq_true (hpoint habove)
    rw [if_neg hbelow, if_pos habove]
    rfl
  · next hbelow habove =>
    have hbelow : ¬r.HasPoint e (r.below e) := of_decide_eq_false (hpoint hbelow)
    have habove : ¬r.HasPoint e (r.below e + 1) := of_decide_eq_false (hpoint habove)
    rw [if_neg hbelow, if_neg habove]

/-- The middle lies between the two ends. -/
structure IsOrdered (r : RoundingInterval) : Prop where
  low : r.low < r.mid
  high : r.mid < r.high

theorem IsOrdered.contains_mid {r : RoundingInterval} (h : r.IsOrdered) {unit : Nat}
    (hunit : 0 < unit) : r.Contains unit (r.mid * unit) := by
  have hlow : r.low * unit < r.mid * unit := Nat.mul_lt_mul_of_pos_right h.low hunit
  have hhigh : r.mid * unit < r.high * unit := Nat.mul_lt_mul_of_pos_right h.high hunit
  rw [Contains]
  split
  · exact ⟨hlow.le, hhigh.le⟩
  · exact ⟨hlow, hhigh⟩

/-- An interval has no gaps. -/
theorem Contains.of_between {r : RoundingInterval} {unit x y z : Nat} (hx : r.Contains unit x)
    (hz : r.Contains unit z) (hxy : x ≤ y) (hyz : y ≤ z) : r.Contains unit y := by
  rw [Contains] at hx hz ⊢
  by_cases hclosed : r.closed = true
  · rw [if_pos hclosed] at hx hz ⊢
    exact ⟨hx.1.trans hxy, hyz.trans hz.2⟩
  · rw [if_neg hclosed] at hx hz ⊢
    exact ⟨hx.1.trans_le hxy, hyz.trans_lt hz.2⟩

section Grid

variable {r : RoundingInterval} {e : Int}

theorem unit_pos (r : RoundingInterval) (e : Int) : 0 < r.unit e :=
  Nat.mul_pos (Nat.two_pow_pos _) (Nat.pow_pos (by decide))

theorem step_pos (r : RoundingInterval) (e : Int) : 0 < r.step e :=
  Nat.mul_pos (Nat.pow_pos (by decide)) (Nat.two_pow_pos _)

/-- The middle lies between its two neighbours on the grid. -/
theorem below_mul_le (r : RoundingInterval) (e : Int) : r.below e * r.step e ≤ r.mid * r.unit e :=
  Nat.div_mul_le_self _ _

theorem lt_succ_below_mul (r : RoundingInterval) (e : Int) :
    r.mid * r.unit e < r.below e * r.step e + r.step e :=
  Nat.lt_div_mul_add (step_pos r e)

/-- Of the points of a grid in the interval, one is a neighbour of the middle. -/
theorem IsOrdered.hasPoint_below (h : r.IsOrdered) {c : Nat} (hc : r.HasPoint e c)
    (hle : c ≤ r.below e) : r.HasPoint e (r.below e) :=
  hc.of_between (h.contains_mid (unit_pos r e)) (Nat.mul_le_mul_right _ hle) (below_mul_le r e)

theorem IsOrdered.hasPoint_above (h : r.IsOrdered) {c : Nat} (hc : r.HasPoint e c)
    (hlt : r.below e < c) : r.HasPoint e (r.below e + 1) :=
  (h.contains_mid (unit_pos r e)).of_between hc
    ((lt_succ_below_mul r e).le.trans_eq (Nat.succ_mul _ _).symm) (Nat.mul_le_mul_right _ hlt)

/-- No point is found only if there is none. -/
theorem IsOrdered.not_hasPoint (h : r.IsOrdered) (hnone : r.onGrid? e = none) (c : Nat) :
    ¬r.HasPoint e c := by
  intro hc
  rw [onGrid?_eq] at hnone
  rcases Nat.lt_or_ge (r.below e) c with hlt | hle
  · have habove := h.hasPoint_above hc hlt
    simp only [habove, if_true] at hnone
    split at hnone
    · split at hnone <;> cases hnone
    · cases hnone
  · have hbelow := h.hasPoint_below hc hle
    simp only [hbelow, if_true] at hnone
    split at hnone
    · split at hnone <;> cases hnone
    · cases hnone

/-- A point that is found is on its grid and in the interval, and none on the grid is nearer to the
middle. -/
theorem IsOrdered.onGrid?_spec (h : r.IsOrdered) {d : Decimal} (hsome : r.onGrid? e = some d) :
    d.exponent = e ∧ r.HasPoint e d.coefficient ∧ ∀ c, r.HasPoint e c →
      IsNearer ((r.mid * r.unit e : Nat) : Int) (d.coefficient * r.step e) (c * r.step e) := by
  have hle := below_mul_le r e
  have hlt := lt_succ_below_mul r e
  have habove : (r.below e + 1) * r.step e = r.below e * r.step e + r.step e := Nat.succ_mul _ _
  -- every point is below the middle, and then not above the lower neighbour, or above the middle
  have hside {c : Nat} (hc : r.HasPoint e c) :
      r.HasPoint e (r.below e) ∧ c * r.step e ≤ r.below e * r.step e ∨
        r.HasPoint e (r.below e + 1) ∧ r.below e * r.step e + r.step e ≤ c * r.step e := by
    rcases Nat.lt_or_ge (r.below e) c with hgt | hge
    · exact .inr ⟨h.hasPoint_above hc hgt, habove ▸ Nat.mul_le_mul_right _ hgt⟩
    · exact .inl ⟨h.hasPoint_below hc hge, Nat.mul_le_mul_right _ hge⟩
  rw [onGrid?_eq] at hsome
  split at hsome
  · next hbelow =>
    split at hsome
    · next hpoint =>
      split at hsome
      all_goals
        obtain rfl := Option.some.inj hsome
        refine ⟨rfl, ‹_›, fun c hc => ?_⟩
        have hc := hside hc
        simp only [IsNearer, habove]
        omega
    · next hpoint =>
      obtain rfl := Option.some.inj hsome
      refine ⟨rfl, hbelow, fun c hc => ?_⟩
      have hc := (hside hc).resolve_right fun hc => hpoint hc.1
      simp only [IsNearer]
      omega
  · next hbelow =>
    split at hsome
    · next hpoint =>
      obtain rfl := Option.some.inj hsome
      refine ⟨rfl, hpoint, fun c hc => ?_⟩
      have hc := (hside hc).resolve_left fun hc => hbelow hc.1
      simp only [IsNearer, habove]
      omega
    · cases hsome

end Grid

/-! ### The coarsest grid -/

end RoundingInterval

/-- The first number of a range for which something is found. -/
theorem findSome?_range_eq_some {α : Type} {f : Nat → Option α} {n : Nat} {a : α}
    (h : (List.range n).findSome? f = some a) : ∃ j < n, f j = some a ∧ ∀ k < j, f k = none := by
  obtain ⟨before, j, after, hrange, hj, hbefore⟩ := List.findSome?_eq_some_iff.mp h
  have hsorted : (before ++ j :: after).Pairwise (· < ·) := hrange ▸ List.pairwise_lt_range
  have hmem (k : Nat) : k < n ↔ k ∈ before ++ j :: after := by rw [← hrange, List.mem_range]
  obtain ⟨-, hafter, -⟩ := List.pairwise_append.mp hsorted
  refine ⟨j, (hmem j).mpr (by simp), hj, fun k hk => hbefore k ?_⟩
  have hjn : j < n := (hmem j).mpr (by simp)
  rcases List.mem_append.mp ((hmem k).mp (hk.trans hjn)) with hk' | hk'
  · exact hk'
  · rcases List.mem_cons.mp hk' with rfl | hk'
    · exact absurd hk (Nat.lt_irrefl k)
    · exact absurd hk (List.rel_of_pairwise_cons hafter hk').le.not_gt

namespace RoundingInterval

/-- If one of the grids tried has a point, the search stops at the coarsest one that has. -/
theorem IsOrdered.coarsest_spec {r : RoundingInterval} (h : r.IsOrdered) {i : Nat} (hi : i < 24)
    {c : Nat} (hpoint : r.HasPoint (r.startExponent - i) c) :
    ∃ j ≤ i, r.onGrid? (r.startExponent - j) = some r.coarsest ∧
      ∀ k < j, r.onGrid? (r.startExponent - k) = none := by
  have hne : (List.range 24).findSome? (fun k : Nat => r.onGrid? (r.startExponent - k)) ≠ none := by
    intro hnone
    have hi := List.findSome?_eq_none_iff.mp hnone i (List.mem_range.mpr hi)
    exact h.not_hasPoint hi c hpoint
  obtain ⟨d, hd⟩ := Option.ne_none_iff_exists'.mp hne
  have hcoarsest : r.coarsest = d := by
    rw [coarsest, hd]
    rfl
  obtain ⟨j, -, hj, hbefore⟩ := findSome?_range_eq_some hd
  refine ⟨j, ?_, hcoarsest ▸ hj, hbefore⟩
  by_contra hlt
  exact h.not_hasPoint (hbefore i (by omega)) c hpoint

end RoundingInterval

/-! ### Digits of multiples of ten -/

theorem toDigits_mul_ten_pow {c : Nat} (hc : 0 < c) (e : Nat) :
    Nat.toDigits 10 (c * 10 ^ e) = Nat.toDigits 10 c ++ List.replicate e '0' := by
  induction e with
  | zero => rw [pow_zero, Nat.mul_one, List.replicate_zero, List.append_nil]
  | succ e ih =>
    have hpos : 0 < c * 10 ^ e := Nat.mul_pos hc (Nat.pow_pos (by decide))
    have hmul : c * 10 ^ (e + 1) = 10 * (c * 10 ^ e) + 0 := by ring
    rw [hmul, ← Nat.toDigits_append_toDigits (by decide) hpos (by decide), ih,
      List.replicate_succ', List.append_assoc]
    rfl

theorem positional_natCast {c : Nat} (hc : 0 < c) (e : Nat) :
    String.ofList (positional (naturalText c).toList e) = naturalText (c * 10 ^ e) := by
  rw [positional, if_pos (by omega), Int.toNat_natCast, toList_naturalText,
    ← toDigits_mul_ten_pow hc, naturalText, Nat.repr_eq_ofList_toDigits]

/-! ### Whole numbers between 2⁶³ and 2⁶⁴ -/

/-- Of the natural numbers that are read as the same word as `v`, none has more zeros at its end,
and of those with as many zeros `v` is the nearest to the number that the word stands for. -/
def IsShortest (v : Nat) : Prop :=
  ∃ (zeros : Nat) (centre : Int), 10 ^ zeros ∣ v ∧ (Binary64.ofInt v).toInteger? = some centre ∧
    ∀ w : Nat, Binary64.ofInt w = Binary64.ofInt v →
      ¬10 ^ (zeros + 1) ∣ w ∧ (10 ^ zeros ∣ w → IsNearer centre v w)

/-- A word has one shortest number. -/
theorem IsShortest.unique {v w : Nat} (hv : IsShortest v) (hw : IsShortest w)
    (h : Binary64.ofInt w = Binary64.ofInt v) : v = w := by
  obtain ⟨i, centre, hi, hcentre, hvShortest⟩ := hv
  obtain ⟨j, centre', hj, hcentre', hwShortest⟩ := hw
  rw [h, hcentre, Option.some.injEq] at hcentre'
  obtain rfl := hcentre'
  obtain ⟨hnotI, hnearI⟩ := hvShortest w h
  obtain ⟨hnotJ, hnearJ⟩ := hwShortest v h.symm
  have hij : i = j := by
    rcases Nat.lt_trichotomy i j with hlt | heq | hgt
    · exact absurd ((pow_dvd_pow 10 hlt).trans hj) hnotI
    · exact heq
    · exact absurd ((pow_dvd_pow 10 hgt).trans hi) hnotJ
  subst hij
  exact (hnearI hj).antisymm (hnearJ hi)

namespace BinaryFormat

theorem isOrdered_interval {m : Nat} {q : Int} (hm : 0 < m) :
    (binary64.interval ⟨m, q⟩).IsOrdered where
  low := by
    simp only [interval]
    split <;> omega
  high := by
    simp only [interval]
    omega

section Interval

variable {m q : Nat}

theorem unit_interval (e : Nat) : (binary64.interval ⟨m, q + 2⟩).unit e = 2 ^ q := by
  have hexponent : ((q : Int) + 2 - 2).toNat = q := by omega
  have hneg : (-(e : Int)).toNat = 0 := by omega
  rw [RoundingInterval.unit, interval, hexponent, hneg]
  exact Nat.mul_one _

theorem step_interval (e : Nat) : (binary64.interval ⟨m, q + 2⟩).step e = 10 ^ e := by
  have hexponent : (-((q : Int) + 2 - 2)).toNat = 0 := by omega
  rw [RoundingInterval.step, interval, hexponent, Int.toNat_natCast]
  exact Nat.mul_one _

/-- The points of the interval are the multiples of `10 ^ e` that are rounded to its middle. -/
theorem hasPoint_interval_iff (hmin : 2 ^ 52 ≤ m) (hmax : m < 2 ^ 53) (hq : q ≤ 969) {e c : Nat} :
    (binary64.interval ⟨m, q + 2⟩).HasPoint e c ↔
      binary64.nearest? (c * 10 ^ e) 1 = some ⟨m, q + 2⟩ := by
  rw [RoundingInterval.HasPoint, unit_interval, step_interval, nearest?_eq_some_iff hmin hmax hq]

end Interval

/-! The magnitudes of numbers between 2⁶³ and 2⁶⁴ have the exponent 11, and 2⁶⁴ itself 12. -/

section Wide

variable {m q : Nat} (hmin : 2 ^ 52 ≤ m) (hmax : m < 2 ^ 53) (hq : q = 9 ∨ q = 10)
include hmin hmax hq

theorem startExponent_interval : (binary64.interval ⟨m, q + 2⟩).startExponent = 21 := by
  have hlog : (4 * m + 2).log2 = 54 := by
    rw [Nat.log2_eq_iff (by omega)]
    omega
  simp only [RoundingInterval.startExponent, interval, hlog]
  omega

/-- Every such magnitude has a multiple of 1000 in its interval. -/
theorem exists_multiple_of_thousand :
    ∃ c : Nat, binary64.nearest? (c * 10 ^ 3) 1 = some ⟨m, q + 2⟩ := by
  refine ⟨m * 2 ^ (q + 2) / 10 ^ 3 + 1, ?_⟩
  rw [nearest?_eq_some_iff hmin hmax (by omega), contains_interval_iff hmin (by omega)]
  rcases hq with rfl | rfl <;> omega

/-- No number that is rounded to such a magnitude has more than 20 digits. -/
theorem lt_of_nearest? {k : Nat} (h : binary64.nearest? k 1 = some ⟨m, q + 2⟩) :
    0 < k ∧ k < 10 ^ 20 := by
  rw [nearest?_eq_some_iff hmin hmax (by omega), contains_interval_iff hmin (by omega)] at h
  rcases hq with rfl | rfl <;> split at h <;> omega

/-- The shortest decimal of such a magnitude is a whole number. -/
theorem shortest_spec :
    ∃ c e : Nat, binary64.shortest ⟨m, q + 2⟩ = ⟨c, e⟩ ∧ 3 ≤ e ∧
      binary64.nearest? (c * 10 ^ e) 1 = some ⟨m, q + 2⟩ ∧
      ∀ w, binary64.nearest? w 1 = some ⟨m, q + 2⟩ →
        ¬10 ^ (e + 1) ∣ w ∧ (10 ^ e ∣ w → IsNearer (m * 2 ^ (q + 2) : Nat) (c * 10 ^ e) w) := by
  have hrange : q ≤ 969 := by omega
  have hordered := isOrdered_interval (m := m) (q := q + 2) (by omega)
  have hstart := startExponent_interval hmin hmax hq
  obtain ⟨c₀, hc₀⟩ := exists_multiple_of_thousand hmin hmax hq
  have hpoint : (binary64.interval ⟨m, q + 2⟩).HasPoint (21 - (18 : Nat)) c₀ :=
    (hasPoint_interval_iff (e := 3) hmin hmax hrange).mpr hc₀
  rw [← hstart] at hpoint
  obtain ⟨j, hj, hfound, hcoarser⟩ := hordered.coarsest_spec (by decide) hpoint
  rw [hstart] at hfound hcoarser
  -- the search goes down from the exponent 21, and stops at 3 at the latest
  obtain ⟨e, he⟩ : ∃ e : Nat, (21 - j : Int) = e := ⟨21 - j, by omega⟩
  rw [he] at hfound
  obtain ⟨hexponent, hpoint, hnearest⟩ := hordered.onGrid?_spec hfound
  obtain ⟨c, hshortest⟩ : ∃ c : Nat, (binary64.interval ⟨m, q + 2⟩).coarsest = ⟨c, e⟩ :=
    ⟨_, by rw [← hexponent]⟩
  rw [hshortest] at hpoint hnearest
  rw [hasPoint_interval_iff hmin hmax hrange] at hpoint
  refine ⟨c, e, hshortest, by omega, hpoint, fun w hw => ⟨?_, ?_⟩⟩
  · rintro ⟨b, rfl⟩
    rw [Nat.mul_comm] at hw
    rcases Nat.lt_or_ge e 20 with hlt | hge
    · have hnone := hcoarser (21 - (e + 1)) (by omega)
      rw [show (21 - (21 - (e + 1) : Nat) : Int) = (e + 1 : Nat) by omega] at hnone
      exact hordered.not_hasPoint hnone b ((hasPoint_interval_iff hmin hmax hrange).mpr hw)
    · -- too coarse for any number of this size
      have hpow : 10 ^ 20 ≤ 10 ^ (e + 1) := Nat.pow_le_pow_right (by decide) (by omega)
      obtain ⟨hpos, hlt⟩ := lt_of_nearest? hmin hmax hq hw
      have hle : 1 * 10 ^ (e + 1) ≤ b * 10 ^ (e + 1) :=
        Nat.mul_le_mul_right _ (Nat.pos_of_mul_pos_right hpos)
      omega
  · rintro ⟨b, rfl⟩
    rw [Nat.mul_comm] at hw
    have hnear := hnearest b ((hasPoint_interval_iff hmin hmax hrange).mpr hw)
    have hmid : 4 * m * 2 ^ q = m * 2 ^ (q + 2) := by ring
    rwa [unit_interval, step_interval, Nat.mul_comm b, interval, hmid] at hnear

end Wide

theorem exists_magnitude {n : Nat} (hlow : 2 ^ 63 ≤ n) (hhigh : n < 2 ^ 64) :
    ∃ m q : Nat, 2 ^ 52 ≤ m ∧ m < 2 ^ 53 ∧ (q = 9 ∨ q = 10) ∧
      binary64.nearest? n 1 = some ⟨m, q + 2⟩ := by
  obtain ⟨hmin, hmax⟩ := roundedSignificand_mem hlow hhigh
  by_cases hcarry : roundedSignificand n 63 = 2 ^ 53
  · refine ⟨2 ^ 52, 10, le_rfl, by norm_num, .inr rfl, ?_⟩
    rw [nearest?_one_eq_some_iff hlow hhigh]
    omega
  · refine ⟨roundedSignificand n 63, 9, hmin, by omega, .inl rfl, ?_⟩
    rw [nearest?_one_eq_some_iff hlow hhigh]
    omega

end BinaryFormat

namespace Binary64

open BinaryFormat

section Finite

variable {n m q : Nat} (h : binary64.nearest? n 1 = some ⟨m, q⟩)
include h

theorem datum_ofInt_of_nearest? : (ofInt n).datum = .finite false ⟨m, q⟩ := by
  rw [datum_ofInt_natCast, BinaryFormat.round, h]

theorem toInteger?_ofInt_of_nearest? : (ofInt n).toInteger? = some (m * 2 ^ q : Nat) := by
  have hneg : (-(q : Int)).toNat = 0 := by omega
  rw [toInteger?, datum_ofInt_of_nearest? h]
  simp only [hneg, Int.toNat_natCast, pow2_eq, pow_zero, Nat.mod_one, Nat.div_one, if_true]
  rfl

theorem text_ofInt_of_nearest? (hm : m ≠ 0) {c e : Nat} (hc : 0 < c)
    (hshortest : binary64.shortest ⟨m, q⟩ = ⟨c, e⟩) :
    (ofInt n).text = naturalText (c * 10 ^ e) := by
  rw [text, datum_ofInt_of_nearest? h]
  simp only [hm, if_false, hshortest, positional_natCast hc]
  rfl

end Finite

/-- What is written for a number between 2⁶³ and 2⁶⁴ that is stored as a word is the shortest number
that is read as that word. -/
theorem exists_isShortest {n : Nat} (hlow : 2 ^ 63 ≤ n) (hhigh : n < 2 ^ 64) :
    ∃ v, (ofInt n).text = naturalText v ∧ ofInt v = ofInt n ∧ IsShortest v ∧ 1000 ∣ v := by
  obtain ⟨m, q, hmin, hmax, hq, hn⟩ := exists_magnitude hlow hhigh
  obtain ⟨c, e, hshortest, he, hv, hspec⟩ := shortest_spec hmin hmax hq
  have hc : 0 < c := Nat.pos_of_mul_pos_right (lt_of_nearest? hmin hmax hq hv).1
  have hword : ofInt (c * 10 ^ e : Nat) = ofInt n := ofInt_eq_ofInt_iff.mpr (hv.trans hn.symm)
  refine ⟨c * 10 ^ e, text_ofInt_of_nearest? hn (by omega) hc hshortest, hword, ?_, ?_⟩
  · refine ⟨e, _, Nat.dvd_mul_left _ _, toInteger?_ofInt_of_nearest? hv, fun w hw => ?_⟩
    exact hspec w ((ofInt_eq_ofInt_iff.mp hw).trans hv)
  · exact (pow_dvd_pow 10 he).trans (Nat.dvd_mul_left _ _)

theorem naturalText_injective : Function.Injective naturalText := by
  intro a b h
  rw [← digitsValue_toDigits a, ← digitsValue_toDigits b, ← toList_naturalText, h,
    toList_naturalText]

/-- A number between 2⁶³ and 2⁶⁴ is written with its own digits exactly if it is the shortest one
that is read as its word; it ends with three zeros at least then. -/
theorem text_ofInt_eq_iff {n : Nat} (hlow : 2 ^ 63 ≤ n) (hhigh : n < 2 ^ 64) :
    (ofInt n).text = naturalText n ↔ IsShortest n := by
  obtain ⟨v, htext, hword, hshortest, -⟩ := exists_isShortest hlow hhigh
  rw [htext, naturalText_injective.eq_iff]
  constructor
  · rintro rfl
    exact hshortest
  · intro hn
    exact hshortest.unique hn hword.symm

/-- Ten to the nineteenth is such a number, and 2⁶³ is none. -/
example : IsShortest (10 ^ 19) ∧ ¬IsShortest (2 ^ 63) := by
  rw [← text_ofInt_eq_iff (by norm_num) (by norm_num),
    ← text_ofInt_eq_iff (by norm_num) (by norm_num)]
  decide +kernel

end Binary64

end BoundSql.Number
