/-!
# The case of ASCII letters

A character differs from its lower case only if it is a capital letter of ASCII, and then by 32.
-/

namespace BoundSql.Text

theorem toNat_toLower (c : Char) :
    c.toLower.toNat = if 65 ≤ c.toNat ∧ c.toNat ≤ 90 then c.toNat + 32 else c.toNat := by
  have hupper : (c.val ≥ 'A'.val ∧ c.val ≤ 'Z'.val) ↔ 65 ≤ c.toNat ∧ c.toNat ≤ 90 := Iff.rfl
  unfold Char.toLower
  split
  · next h =>
    have hdistance : ('a'.val - 'A'.val).toNat = 32 := rfl
    have hle : c.val.toNat ≤ 90 := (hupper.mp h).2
    rw [if_pos (hupper.mp h)]
    show (c.val + ('a'.val - 'A'.val)).toNat = c.val.toNat + 32
    rw [UInt32.toNat_add, hdistance]
    omega
  · next h => rw [if_neg (mt hupper.mpr h)]

/-- Only the letters of ASCII have a lower case in ASCII. -/
theorem toNat_toLower_lt_iff (c : Char) : c.toLower.toNat < 128 ↔ c.toNat < 128 := by
  rw [toNat_toLower]
  split <;> omega

/-- A small letter is the lower case of itself and of its capital letter. -/
theorem toLower_eq_iff {c lower upper : Char} (hcase : lower.toNat = upper.toNat + 32)
    (hletter : 65 ≤ upper.toNat ∧ upper.toNat ≤ 90) :
    c.toLower = lower ↔ c = lower ∨ c = upper := by
  rw [← Char.toNat_inj, ← Char.toNat_inj, ← Char.toNat_inj, toNat_toLower]
  split <;> omega

end BoundSql.Text
