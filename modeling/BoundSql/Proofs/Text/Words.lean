import BoundSql.Proofs.Text.Ascii
import BoundSql.Proofs.Text.Casing

/-!
# Words in either case

Full case mapping takes some characters outside ASCII to letters of ASCII: `ı` and `ſ` have the
upper cases `I` and `S`, the Kelvin sign has the lower case `k`, and the ligature `ﬁ` has the upper
case `FI`. A word without such letters is the image of ASCII texts only, of those that differ from
it in the case of letters:

    upper_eq_iff     :  upper s = "AND" ↔ Spells s "AND"
    lower_eq_iff     :  lower s = "view" ↔ Spells s "view"
    lowerWith_eq_iff :  lowerWith final s = "view" ↔ Spells s "view"

For either direction that is read off the table of case mappings, run by run. The last one allows
for any rule that makes a capital sigma at the end of a word a final one.
-/

namespace BoundSql.Text

/-- The text is the word, each letter in either case. Only the letters of ASCII have a case here. -/
def Spells (s word : String) : Prop :=
  s.toList.map Char.toLower = word.toList.map Char.toLower

instance (s word : String) : Decidable (Spells s word) :=
  inferInstanceAs (Decidable (s.toList.map Char.toLower = word.toList.map Char.toLower))

theorem Spells.lt {s word : String} (h : Spells s word) (hword : ∀ d ∈ word.toList, d.toNat < 128) :
    ∀ c ∈ s.toList, c.toNat < 128 := by
  intro c hc
  have hmem : c.toLower ∈ word.toList.map Char.toLower := h ▸ List.mem_map_of_mem hc
  obtain ⟨d, hd, hcase⟩ := List.mem_map.mp hmem
  rw [← toNat_toLower_lt_iff, ← hcase, toNat_toLower_lt_iff]
  exact hword d hd

/-! ### Points outside a run -/

theorem CaseRun.image_eq_none {r : CaseRun} {n : Nat} (h : n < r.first ∨ r.last < n) :
    r.image n = none := by
  rw [CaseRun.image, if_neg]
  simp only [Bool.and_eq_true, decide_eq_true_eq]
  omega

namespace CaseMapping

variable {m : CaseMapping} {letters : List Char} {n : Nat}

/-! ### Words of letters without strange images -/

theorem apply_cons (m : CaseMapping) (c : Char) (cs : List Char) :
    m.apply (c :: cs) = m.apply [c] ++ m.apply cs := by
  simp [apply]

/-- A character is mapped to one of the letters if it is that letter up to its case, and to several
of them by no means. -/
structure Folds (m : CaseMapping) (letters : List Char) : Prop where
  single : ∀ c, (∀ d ∈ m.apply [c], d ∈ letters) → ∃ d, m.apply [c] = [d]
  same : ∀ c, ∀ d ∈ letters, m.apply [c] = [d] ↔ c.toLower = d.toLower

theorem Folds.apply_eq_iff (h : m.Folds letters) {cs word : List Char} (hword : word ⊆ letters) :
    m.apply cs = word ↔ cs.map Char.toLower = word.map Char.toLower := by
  induction cs generalizing word with
  | nil =>
    show [] = word ↔ _
    cases word <;> simp
  | cons c cs ih =>
    rw [apply_cons]
    constructor
    · rintro rfl
      obtain ⟨d, hd⟩ := h.single c fun d hd => hword (List.mem_append_left _ hd)
      rw [hd] at hword ⊢
      have hcase : c.toLower = d.toLower := (h.same c d (hword List.mem_cons_self)).mp hd
      have hrest := (ih fun d hd => hword (List.mem_cons_of_mem _ hd)).mp rfl
      rw [List.map_cons, hcase, hrest]
      rfl
    · intro hmap
      cases word with
      | nil => cases hmap
      | cons d word =>
        obtain ⟨hcase, hrest⟩ := List.cons.inj hmap
        rw [(h.same c d (hword List.mem_cons_self)).mpr hcase,
          (ih fun d hd => hword (List.mem_cons_of_mem _ hd)).mpr hrest]
        rfl

/-- Behind its first run, which is in ASCII, the mapping moves nothing from ASCII, and nothing to
the letters. -/
structure Isolates (m : CaseMapping) (first : CaseRun) (letters : List Char) : Prop where
  head : m.runs.head? = some first
  first : first.last < 128
  runs : ∀ r ∈ m.runs.tail, 128 ≤ r.first ∧
    ∀ k ∈ letters.map Char.toNat, (k : Int) < r.first + r.offset ∨ (r.last : Int) + r.offset < k
  expansions : ∀ e ∈ m.expansions, 128 ≤ e.1 ∧ ∃ k ∈ e.2, Char.ofNat k ∉ letters
  points : ∀ k ∈ letters.map Char.toNat, 0 < k ∧ k < 128

variable {first : CaseRun}

theorem Isolates.runs_eq (h : m.Isolates first letters) : m.runs = first :: m.runs.tail :=
  (List.cons_head?_tail h.head).symm

theorem Isolates.mem_range (h : m.Isolates first letters) {d : Char} (hd : d ∈ letters) :
    0 < d.toNat ∧ d.toNat < 128 :=
  h.points _ (List.mem_map_of_mem hd)

/-- In ASCII, only the first run is at work. -/
theorem Isolates.image_of_lt (h : m.Isolates first letters) (hn : n < 128) :
    m.image n = [(first.image n).getD n] := by
  cases hfirst : first.image n with
  | some k => rw [image, h.runs_eq, List.findSome?_cons, hfirst]; rfl
  | none =>
    have htail : m.runs.tail.findSome? (·.image n) = none := by
      rw [List.findSome?_eq_none_iff]
      intro r hr
      exact CaseRun.image_eq_none (.inl (hn.trans_le (h.runs r hr).1))
    have hexpansion : m.expansions.lookup n = none := by
      rw [List.lookup_eq_none_iff]
      intro e he
      rw [bne_iff_ne]
      have := (h.expansions e he).1
      omega
    rw [image, h.runs_eq, List.findSome?_cons, hfirst, htail, hexpansion]
    rfl

theorem toNat_ofNat_of_pos {k : Nat} (h : 0 < (Char.ofNat k).toNat) : (Char.ofNat k).toNat = k := by
  by_cases hk : k.isValidChar
  · exact toNat_ofNat hk
  · -- everything that is no character is read as the character zero
    rw [Char.ofNat, dif_neg hk] at h
    exact absurd h (by decide)

/-- A character outside ASCII is not mapped to the letters alone. -/
theorem Isolates.lt_of_apply (h : m.Isolates first letters) {c : Char}
    (hc : ∀ d ∈ m.apply [c], d ∈ letters) : c.toNat < 128 := by
  have happly : m.apply [c] = (m.image c.toNat).map Char.ofNat := by simp [apply]
  rw [happly, List.forall_mem_map, image] at hc
  split at hc
  · next k hk =>
    obtain ⟨r, hr, hrk⟩ := List.exists_of_findSome?_eq_some hk
    have hrange : r.first ≤ c.toNat ∧ c.toNat ≤ r.last := by
      by_contra hout
      rw [CaseRun.image_eq_none (by omega)] at hrk
      cases hrk
    rw [h.runs_eq] at hr
    rcases List.mem_cons.mp hr with rfl | hr
    · exact hrange.2.trans_lt h.first
    · have hletter := hc k (List.mem_singleton_self k)
      have hpos := (h.mem_range hletter).1
      have hk : (Char.ofNat k).toNat = k := toNat_ofNat_of_pos hpos
      have hmiss := (h.runs r hr).2 _ (List.mem_map_of_mem hletter)
      have himage := (CaseRun.mem_points_of_image hrk).2
      omega
  · cases hlookup : m.expansions.lookup c.toNat with
    | none =>
      rw [hlookup] at hc
      have hself := hc c.toNat (List.mem_singleton_self _)
      rw [Char.ofNat_toNat] at hself
      exact (h.mem_range hself).2
    | some ks =>
      rw [hlookup] at hc
      obtain ⟨before, after, hexpansions, -⟩ := List.lookup_eq_some_iff.mp hlookup
      have hmem : (c.toNat, ks) ∈ m.expansions := by
        rw [hexpansions]
        exact List.mem_append_right _ List.mem_cons_self
      obtain ⟨k, hk, hother⟩ := (h.expansions _ hmem).2
      exact absurd (hc k hk) hother

theorem Isolates.folds (h : m.Isolates first letters)
    (hascii : ∀ n < 128, letters.all fun d =>
      Char.ofNat ((first.image n).getD n) = d ↔ (Char.ofNat n).toLower = d.toLower) :
    m.Folds letters where
  single c hc := by
    have hlt := h.lt_of_apply hc
    refine ⟨Char.ofNat ((first.image c.toNat).getD c.toNat), ?_⟩
    simp [apply, h.image_of_lt hlt]
  same c d hd := by
    have hletter {n : Nat} (hn : n < 128) :=
      of_decide_eq_true (List.all_eq_true.mp (hascii n hn) d hd)
    constructor
    · intro hcd
      have hlt : c.toNat < 128 := h.lt_of_apply (by rw [hcd]; simpa using hd)
      have hone : Char.ofNat ((first.image c.toNat).getD c.toNat) = d := by
        simpa [apply, h.image_of_lt hlt] using hcd
      have hcase := (hletter hlt).mp hone
      rwa [Char.ofNat_toNat] at hcase
    · intro hcase
      have hlt : c.toNat < 128 := by
        rw [← toNat_toLower_lt_iff, hcase, toNat_toLower_lt_iff]
        exact (h.mem_range hd).2
      have hone := (hletter hlt).mpr (by rw [Char.ofNat_toNat]; exact hcase)
      simp [apply, h.image_of_lt hlt, hone]

end CaseMapping

/-! ### The letters of the words -/

/-- The run that moves the letters of ASCII to upper case. -/
def asciiUpperRun : CaseRun := ⟨0x61, 0x7A, 1, -32⟩

/-- The run that moves the letters of ASCII to lower case. -/
def asciiLowerRun : CaseRun := ⟨0x41, 0x5A, 1, 32⟩

theorem isolates_upper : upperMapping.Isolates asciiUpperRun "ANDOR".toList where
  head := rfl
  first := by decide
  runs := by decide +kernel
  expansions := by decide
  points := by decide

theorem isolates_lower : lowerMapping.Isolates asciiLowerRun "abcdeilnstvw".toList where
  head := rfl
  first := by decide
  runs := by decide +kernel
  expansions := by decide
  points := by decide

theorem folds_upper : upperMapping.Folds "ANDOR".toList :=
  isolates_upper.folds (by decide +kernel)

theorem folds_lower : lowerMapping.Folds "abcdeilnstvw".toList :=
  isolates_lower.folds (by decide +kernel)

theorem upper_eq_iff {s word : String} (hword : word.toList ⊆ "ANDOR".toList) :
    upper s = word ↔ Spells s word := by
  rw [upper, ← String.toList_inj, String.toList_ofList]
  exact folds_upper.apply_eq_iff hword

theorem lower_eq_iff {s word : String} (hword : word.toList ⊆ "abcdeilnstvw".toList) :
    lower s = word ↔ Spells s word := by
  rw [lower, ← String.toList_inj, String.toList_ofList]
  exact folds_lower.apply_eq_iff hword

/-- A text without small letters, and with nothing outside ASCII, is in upper case. -/
theorem upper_eq_self {s : String} (h : ∀ c ∈ s.toList, c.toNat < 97) : upper s = s := by
  have hone : ∀ c ∈ s.toList, (upperMapping.image c.toNat).map Char.ofNat = [c] := by
    intro c hc
    have hlt : c.toNat < 97 := h c hc
    rw [isolates_upper.image_of_lt (by omega), CaseRun.image_eq_none (.inl hlt), Option.getD_none,
      List.map_singleton, Char.ofNat_toNat]
  rw [← String.toList_inj, toList_upper]
  exact (List.flatMap_congr hone).trans (List.flatMap_singleton' _)

/-! ### Capital sigmas at the end of a word -/

/-- Lower case in context: a capital sigma becomes a final one where `final` says that it ends a
word, told the characters before it, the nearest one first, and those after it. -/
def lowerInContext (final : List Char → List Char → Bool) : List Char → List Char → List Char
  | _, [] => []
  | before, c :: after =>
    (if c = 'Σ' ∧ final before after then ['ς'] else lowerMapping.apply [c]) ++
      lowerInContext final (c :: before) after

def lowerWith (final : List Char → List Char → Bool) (s : String) : String :=
  String.ofList (lowerInContext final [] s.toList)

/-- Whatever ends a word, a text without sigmas is the lower case of the same texts. -/
theorem lowerInContext_eq_iff (final : List Char → List Char → Bool) (before : List Char)
    {cs word : List Char} (hmedial : 'σ' ∉ word) (hfinal : 'ς' ∉ word) :
    lowerInContext final before cs = word ↔ lowerMapping.apply cs = word := by
  induction cs generalizing before word with
  | nil => rfl
  | cons c cs ih =>
    rw [lowerInContext, CaseMapping.apply_cons lowerMapping c cs]
    split
    · next hsigma =>
      -- one sigma or the other would stand in the word
      have hlower : lowerMapping.apply [c] = ['σ'] := by
        rw [hsigma.1]
        decide
      rw [hlower]
      constructor
      · intro h
        exact absurd (h ▸ List.mem_cons_self) hfinal
      · intro h
        exact absurd (h ▸ List.mem_cons_self) hmedial
    · have hrest {rest : List Char} (h : lowerMapping.apply [c] ++ rest = word) :
          'σ' ∉ rest ∧ 'ς' ∉ rest := by
        rw [← h] at hmedial hfinal
        exact ⟨fun hmem => hmedial (List.mem_append_right _ hmem),
          fun hmem => hfinal (List.mem_append_right _ hmem)⟩
      constructor
      · intro h
        obtain ⟨hmedial', hfinal'⟩ := hrest h
        rw [← h, (ih (c :: before) hmedial' hfinal').mp rfl]
      · intro h
        obtain ⟨hmedial', hfinal'⟩ := hrest h
        rw [← h, (ih (c :: before) hmedial' hfinal').mpr rfl]

theorem lowerWith_eq_iff (final : List Char → List Char → Bool) {s word : String}
    (hword : word.toList ⊆ "abcdeilnstvw".toList) : lowerWith final s = word ↔ Spells s word := by
  have hmedial : 'σ' ∉ word.toList := fun h => absurd (hword h) (by decide)
  have hfinal : 'ς' ∉ word.toList := fun h => absurd (hword h) (by decide)
  rw [lowerWith, ← String.toList_inj, String.toList_ofList,
    lowerInContext_eq_iff final [] hmedial hfinal]
  exact folds_lower.apply_eq_iff hword

/-! ### Characters with a case -/

/-- The character has another upper case or another lower case. -/
def HasCase (c : Char) : Prop := upperMapping.apply [c] ≠ [c] ∨ lowerMapping.apply [c] ≠ [c]

/-- The code points of blanks. -/
def blankPoints : List Nat :=
  [0x09, 0x0A, 0x0B, 0x0C, 0x0D, 0x20, 0x85, 0xA0, 0x1680, 0x2000, 0x2001, 0x2002, 0x2003, 0x2004,
    0x2005, 0x2006, 0x2007, 0x2008, 0x2009, 0x200A, 0x2028, 0x2029, 0x202F, 0x205F, 0x3000]

theorem mem_blankPoints {c : Char} (h : isBlankChar c = true) : c.toNat ∈ blankPoints := by
  simp only [isBlankChar, Bool.or_eq_true, Bool.and_eq_true, decide_eq_true_eq, beq_iff_eq] at h
  simp only [blankPoints, List.mem_cons, List.not_mem_nil]
  omega

theorem CaseMapping.apply_singleton_of_notMem_sources {m : CaseMapping} {c : Char}
    (h : c.toNat ∉ m.sources) : m.apply [c] = [c] := by
  simp [apply, image_of_notMem_sources h]

theorem not_hasCase_of_isBlankChar {c : Char} (h : isBlankChar c = true) : ¬HasCase c := by
  have hupper : bits upperMapping.sources &&& bits blankPoints = 0 := by decide +kernel
  have hlower : bits lowerMapping.sources &&& bits blankPoints = 0 := by decide +kernel
  have hpoint := mem_blankPoints h
  rintro (hcase | hcase)
  · exact hcase (CaseMapping.apply_singleton_of_notMem_sources (notMem_of_bits hupper _ hpoint))
  · exact hcase (CaseMapping.apply_singleton_of_notMem_sources (notMem_of_bits hlower _ hpoint))

end BoundSql.Text
