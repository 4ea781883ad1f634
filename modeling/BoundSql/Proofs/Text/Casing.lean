import BoundSql.Proofs.Text.Blank
import BoundSql.Text.Casing
import Mathlib.Data.List.Basic

/-!
# Upper case is settled

What a text in upper case is made of has no other upper case, and no blank among it comes from a
character that is none. So a text that is trimmed and then put in upper case is kept by doing both
once more (`upper_trim_upper_trim`).

Both are facts about the table of case mappings, which the kernel checks: the code points that are
mapped and those that they are mapped to have none in common.
-/

namespace BoundSql.Text

/-! ### The code points of a mapping -/

def CaseRun.points (r : CaseRun) : List Nat :=
  (List.range ((r.last - r.first) / r.stride + 1)).map fun i => r.first + i * r.stride

namespace CaseMapping

/-- The code points that are not their own image. -/
def sources (m : CaseMapping) : List Nat :=
  m.runs.flatMap CaseRun.points ++ m.expansions.map Prod.fst

/-- The code points that another one is mapped to. -/
def targets (m : CaseMapping) : List Nat :=
  m.runs.flatMap (fun r => r.points.map fun n : Nat => ((n : Int) + r.offset).toNat) ++
    m.expansions.flatMap Prod.snd

end CaseMapping

theorem CaseRun.mem_points_of_image {r : CaseRun} {n k : Nat} (h : r.image n = some k) :
    n ∈ r.points ∧ k = ((n : Int) + r.offset).toNat := by
  rw [CaseRun.image, Option.ite_none_right_eq_some] at h
  obtain ⟨hn, hk⟩ := h
  simp only [Bool.and_eq_true, decide_eq_true_eq, beq_iff_eq] at hn
  obtain ⟨⟨hfirst, hlast⟩, hstride⟩ := hn
  refine ⟨List.mem_map.mpr ⟨(n - r.first) / r.stride, ?_, ?_⟩, (Option.some.inj hk).symm⟩
  · rw [List.mem_range, Nat.lt_succ_iff]
    exact Nat.div_le_div_right (Nat.sub_le_sub_right hlast _)
  · rw [Nat.div_mul_cancel (Nat.dvd_of_mod_eq_zero hstride)]
    omega

namespace CaseMapping

variable {m : CaseMapping} {n k : Nat}

theorem mem_sources_of_run {r : CaseRun} (hr : r ∈ m.runs) (h : r.image n = some k) :
    n ∈ m.sources :=
  List.mem_append_left _ (List.mem_flatMap.mpr ⟨r, hr, (CaseRun.mem_points_of_image h).1⟩)

theorem mem_targets_of_run {r : CaseRun} (hr : r ∈ m.runs) (h : r.image n = some k) :
    k ∈ m.targets := by
  obtain ⟨hn, rfl⟩ := CaseRun.mem_points_of_image h
  exact List.mem_append_left _ (List.mem_flatMap.mpr ⟨r, hr, List.mem_map_of_mem hn⟩)

theorem image_of_notMem_sources (h : n ∉ m.sources) : m.image n = [n] := by
  have hrun : m.runs.findSome? (·.image n) = none := by
    rw [List.findSome?_eq_none_iff]
    intro r hr
    rw [Option.eq_none_iff_forall_ne_some]
    exact fun k hk => h (mem_sources_of_run hr hk)
  have hexpansion : m.expansions.lookup n = none := by
    rw [List.lookup_eq_none_iff]
    intro e he
    rw [bne_iff_ne]
    rintro rfl
    exact h (List.mem_append_right _ (List.mem_map_of_mem he))
  rw [image, hrun, hexpansion]
  rfl

/-- A code point is its own image, or it is mapped by a run or by an expansion. -/
theorem image_cases (m : CaseMapping) (n : Nat) :
    m.image n = [n] ∨ (∃ k ∈ m.targets, m.image n = [k]) ∨
      ∃ e ∈ m.expansions, m.image n = e.2 := by
  rw [image]
  split
  · next k hk =>
    obtain ⟨r, hr, hk⟩ := List.exists_of_findSome?_eq_some hk
    exact .inr (.inl ⟨k, mem_targets_of_run hr hk, rfl⟩)
  · cases hlookup : m.expansions.lookup n with
    | none => exact .inl rfl
    | some ks =>
      obtain ⟨before, after, hexpansions, -⟩ := List.lookup_eq_some_iff.mp hlookup
      refine .inr (.inr ⟨(n, ks), ?_, rfl⟩)
      rw [hexpansions]
      exact List.mem_append_right _ List.mem_cons_self

theorem mem_targets_of_image (h : k ∈ m.image n) : m.image n = [n] ∨ k ∈ m.targets := by
  rcases m.image_cases n with hn | ⟨j, hj, hn⟩ | ⟨e, he, hn⟩
  · exact .inl hn
  · rw [hn, List.mem_singleton] at h
    exact .inr (h ▸ hj)
  · rw [hn] at h
    exact .inr (List.mem_append_right _ (List.mem_flatMap.mpr ⟨e, he, h⟩))

end CaseMapping

/-! ### The table of the mapping to upper case -/

/-- The number whose bits are those in the list. -/
def bits : List Nat → Nat
  | [] => 0
  | n :: ns => bits ns ||| (1 <<< n)

theorem testBit_bits (ns : List Nat) (n : Nat) : (bits ns).testBit n = decide (n ∈ ns) := by
  induction ns with
  | nil => simp [bits]
  | cons k ns ih =>
    rw [bits, Nat.testBit_or, ih, Nat.one_shiftLeft, Nat.testBit_two_pow]
    simp [List.mem_cons, Bool.or_comm, eq_comm]

/-- Two numbers of many bits are compared faster than two lists. -/
theorem notMem_of_bits {ns ks : List Nat} (h : bits ns &&& bits ks = 0) : ∀ k ∈ ks, k ∉ ns := by
  intro k hks hns
  have hbit := congrArg (Nat.testBit · k) h
  simp [testBit_bits, hks, hns] at hbit

theorem sources_disjoint_targets : ∀ k ∈ upperMapping.targets, k ∉ upperMapping.sources :=
  notMem_of_bits (by decide +kernel)

theorem targets_characters : ∀ k ∈ upperMapping.targets,
    k.isValidChar ∧ isBlankChar (Char.ofNat k) = false := by
  decide +kernel

theorem expansions_ne_nil : ∀ e ∈ upperMapping.expansions, e.2 ≠ [] := by decide

/-! ### Characters in upper case -/

theorem toNat_ofNat {n : Nat} (h : n.isValidChar) : (Char.ofNat n).toNat = n := by
  rw [Char.ofNat, dif_pos h]
  rfl

/-- The characters that a character is mapped to. -/
def upperChar (c : Char) : List Char := (upperMapping.image c.toNat).map Char.ofNat

theorem upperChar_ne_nil (c : Char) : upperChar c ≠ [] := by
  rw [upperChar, ne_eq, List.map_eq_nil_iff]
  rcases upperMapping.image_cases c.toNat with h | ⟨k, -, h⟩ | ⟨e, he, h⟩
  · exact h ▸ List.cons_ne_nil _ _
  · exact h ▸ List.cons_ne_nil _ _
  · exact h ▸ expansions_ne_nil e he

theorem upperChar_eq_self_or {c d : Char} (h : d ∈ upperChar c) :
    upperChar c = [c] ∨ d.toNat ∈ upperMapping.targets := by
  obtain ⟨k, hk, rfl⟩ := List.mem_map.mp h
  rcases CaseMapping.mem_targets_of_image hk with himage | htarget
  · rw [upperChar, himage, List.map_singleton, Char.ofNat_toNat]
    exact .inl rfl
  · rw [toNat_ofNat (targets_characters k htarget).1]
    exact .inr htarget

/-- What is in upper case stays as it is. -/
theorem upperChar_of_mem_upperChar {c d : Char} (h : d ∈ upperChar c) : upperChar d = [d] := by
  rcases upperChar_eq_self_or h with hself | htarget
  · rw [hself, List.mem_singleton] at h
    rw [h, hself]
  · rw [upperChar, CaseMapping.image_of_notMem_sources (sources_disjoint_targets _ htarget),
      List.map_singleton, Char.ofNat_toNat]

theorem isBlankChar_of_mem_upperChar {c d : Char} (hc : isBlankChar c = false)
    (h : d ∈ upperChar c) : isBlankChar d = false := by
  rcases upperChar_eq_self_or h with hself | htarget
  · rw [hself, List.mem_singleton] at h
    rw [h, hc]
  · rw [← Char.ofNat_toNat d]
    exact (targets_characters _ htarget).2

/-! ### Texts in upper case -/

theorem toList_upper (s : String) : (upper s).toList = s.toList.flatMap upperChar := by
  rw [upper, String.toList_ofList]
  rfl

@[simp] theorem upper_upper (s : String) : upper (upper s) = upper s := by
  rw [← String.toList_inj, toList_upper, toList_upper, List.flatMap_assoc]
  congr 1
  funext c
  calc (upperChar c).flatMap upperChar
      = (upperChar c).flatMap fun d => [d] :=
        List.flatMap_congr fun d hd => upperChar_of_mem_upperChar hd
    _ = upperChar c := List.flatMap_singleton' _

/-- Upper case of a trimmed text is trimmed. -/
@[simp] theorem trim_upper_trim (s : String) : trim (upper (trim s)) = upper (trim s) := by
  have htrimmed : Trimmed ((trimChars s.toList).flatMap upperChar) :=
    (trimmed_trimChars s.toList).flatMap upperChar_ne_nil
      fun _ hc _ hd => isBlankChar_of_mem_upperChar hc hd
  rw [← String.toList_inj, toList_trim, toList_upper, toList_trim, htrimmed.trimChars_eq]

theorem upper_trim_upper_trim (s : String) :
    upper (trim (upper (trim s))) = upper (trim s) := by
  simp

end BoundSql.Text
