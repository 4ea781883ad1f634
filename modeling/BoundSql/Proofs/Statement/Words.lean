import BoundSql.Predicate.Basic
import BoundSql.Proofs.Text.Blank
import BoundSql.Proofs.Text.Words
import BoundSql.Statement.Kind
import Mathlib.Data.List.Nodup

/-!
# The words of closed choices

Connectors, kinds of objects to drop and union modes are named by words. A word may be written in
either case of ASCII and with blanks around it, and that is all the freedom there is: although the
readers use full case mapping, no character outside ASCII takes part in a word that is accepted
(`choices_read_words`).
-/

namespace BoundSql

open Text (Spells HasCase)

/-- The reader knows exactly the words of the table. A text that spells one of them, apart from the
blanks around it, means what the word means. Every other text is refused, with a fault that quotes
it as it was given; among those is each text with a character outside ASCII that has a case. -/
structure ReadsWords {α : Type} (read : String → Except SqlError α) (words : List (String × α))
    (fault : String → ArgumentFault) : Prop where
  accepted : ∀ s a, read s = .ok a ↔ ∃ word, (word, a) ∈ words ∧ Spells (Text.trim s) word
  refused : ∀ s e, read s = .error e ↔
    (∀ w ∈ words, ¬Spells (Text.trim s) w.1) ∧ e = .invalidArgument (fault s)
  cased : ∀ s, (∃ c ∈ s.toList, 128 ≤ c.toNat ∧ HasCase c) →
    read s = .error (.invalidArgument (fault s))
  quoted : ∀ s, ∃ before after,
    (fault s).message = (before ++ "'") ++ s ++ ("'" ++ after)

/-! ### Readers by a table -/

/-- Look a text up in a table of words, in one case and without the blanks around it. -/
def readWord {α : Type} (fold : String → String) (words : List (String × α))
    (fault : String → ArgumentFault) (s : String) : Except SqlError α :=
  match words.lookup (fold (Text.trim s)) with
  | some a => .ok a
  | none => .error (.invalidArgument (fault s))

theorem lookup_eq_some_iff_mem {α : Type} {words : List (String × α)}
    (hdistinct : (words.map Prod.fst).Nodup) {word : String} {a : α} :
    words.lookup word = some a ↔ (word, a) ∈ words := by
  induction words with
  | nil => simp
  | cons w words ih =>
    obtain ⟨hnew, hrest⟩ := List.nodup_cons.mp hdistinct
    rw [List.lookup_cons, List.mem_cons, ← ih hrest]
    by_cases hword : word = w.1
    · subst hword
      have hnone : words.lookup w.1 ≠ some a := by
        rw [ne_eq, ih hrest]
        intro hmem
        exact hnew (List.mem_map.mpr ⟨_, hmem, rfl⟩)
      simp [hnone, Prod.ext_iff, eq_comm]
    · have hne : (word == w.1) = false := by simpa using hword
      simp [hne, Prod.ext_iff, hword]

section

variable {α : Type} {fold : String → String} {words : List (String × α)}
  {fault : String → ArgumentFault}

theorem readWord_eq_ok_iff (hdistinct : (words.map Prod.fst).Nodup)
    (hfold : ∀ w ∈ words, ∀ t, fold t = w.1 ↔ Spells t w.1) {s : String} {a : α} :
    readWord fold words fault s = .ok a ↔
      ∃ word, (word, a) ∈ words ∧ Spells (Text.trim s) word := by
  have hlookup : readWord fold words fault s = .ok a ↔
      words.lookup (fold (Text.trim s)) = some a := by
    unfold readWord
    cases words.lookup (fold (Text.trim s)) <;> simp
  rw [hlookup, lookup_eq_some_iff_mem hdistinct]
  constructor
  · intro hmem
    exact ⟨_, hmem, (hfold _ hmem _).mp rfl⟩
  · rintro ⟨word, hmem, hspells⟩
    rw [(hfold _ hmem _).mpr hspells]
    exact hmem

theorem readWord_eq_error_iff (hfold : ∀ w ∈ words, ∀ t, fold t = w.1 ↔ Spells t w.1)
    {s : String} {e : SqlError} :
    readWord fold words fault s = .error e ↔
      (∀ w ∈ words, ¬Spells (Text.trim s) w.1) ∧ e = .invalidArgument (fault s) := by
  have hlookup : words.lookup (fold (Text.trim s)) = none ↔
      ∀ w ∈ words, ¬Spells (Text.trim s) w.1 := by
    rw [List.lookup_eq_none_iff]
    refine forall₂_congr fun w hw => ?_
    rw [bne_iff_ne, ne_eq, hfold w hw]
  rw [← hlookup]
  unfold readWord
  cases words.lookup (fold (Text.trim s)) <;> simp [eq_comm]

/-- For a reader, two mappings are the same if they map the same texts to its words. -/
theorem readWord_congr {fold' : String → String} (hdistinct : (words.map Prod.fst).Nodup)
    (hfold : ∀ w ∈ words, ∀ t, fold t = w.1 ↔ Spells t w.1)
    (hfold' : ∀ w ∈ words, ∀ t, fold' t = w.1 ↔ Spells t w.1) :
    readWord fold words fault = readWord fold' words fault := by
  funext s
  cases h : readWord fold' words fault s with
  | ok a =>
    rw [readWord_eq_ok_iff hdistinct hfold]
    exact (readWord_eq_ok_iff hdistinct hfold').mp h
  | error e =>
    rw [readWord_eq_error_iff hfold]
    exact (readWord_eq_error_iff hfold').mp h

theorem readWord_lower_eq (final : List Char → List Char → Bool)
    (hdistinct : (words.map Prod.fst).Nodup)
    (hletters : ∀ w ∈ words, w.1.toList ⊆ "abcdeilnstvw".toList) :
    readWord Text.lower words fault = readWord (Text.lowerWith final) words fault := by
  apply readWord_congr hdistinct
  · intro w hw t
    exact Text.lower_eq_iff (hletters w hw)
  · intro w hw t
    exact Text.lowerWith_eq_iff final (hletters w hw)

/-- A text that spells a word of ASCII, apart from blanks, has no other character with a case. -/
theorem not_hasCase_of_spells {s word : String} (hword : ∀ d ∈ word.toList, d.toNat < 128)
    (h : Spells (Text.trim s) word) : ∀ c ∈ s.toList, 128 ≤ c.toNat → ¬HasCase c := by
  intro c hc hhigh
  obtain ⟨front, back, hsplit, hfront, hback⟩ := Text.exists_blanks_trimChars s.toList
  rw [hsplit, List.mem_append, List.mem_append] at hc
  rcases hc with (hc | hc) | hc
  · exact Text.not_hasCase_of_isBlankChar (hfront c hc)
  · rw [← Text.toList_trim] at hc
    exact absurd (h.lt hword c hc) (Nat.not_lt.mpr hhigh)
  · exact Text.not_hasCase_of_isBlankChar (hback c hc)

theorem readsWords_readWord (before after : String)
    (hquoted : ∀ s, (fault s).message = (before ++ "'") ++ s ++ ("'" ++ after))
    (hdistinct : (words.map Prod.fst).Nodup)
    (hascii : ∀ w ∈ words, ∀ k ∈ w.1.toList.map Char.toNat, k < 128)
    (hfold : ∀ w ∈ words, ∀ t, fold t = w.1 ↔ Spells t w.1) :
    ReadsWords (readWord fold words fault) words fault where
  accepted _ _ := readWord_eq_ok_iff hdistinct hfold
  refused _ _ := readWord_eq_error_iff hfold
  cased := by
    rintro s ⟨c, hc, hhigh, hcase⟩
    rw [readWord_eq_error_iff hfold]
    refine ⟨?_, rfl⟩
    intro w hw hspells
    have hword : ∀ d ∈ w.1.toList, d.toNat < 128 := List.forall_mem_map.mp (hascii w hw)
    exact not_hasCase_of_spells hword hspells c hc hhigh hcase
  quoted s := ⟨before, after, hquoted s⟩

end

/-! ### Connectors, kinds of objects and union modes -/

namespace Connector

def words : List (String × Connector) := [("AND", .and), ("OR", .or)]

theorem parse_eq : parse = readWord Text.upper words .connector := by
  funext s
  unfold parse readWord
  generalize Text.upper (Text.trim s) = t
  split
  · rfl
  · rfl
  · next hand hor =>
    have hlookup : words.lookup t = none := by
      rw [List.lookup_eq_none_iff]
      simpa [words] using And.intro hand hor
    rw [hlookup]

theorem readsWords_parse : ReadsWords parse words .connector := by
  have hquoted (s : String) : (ArgumentFault.connector s).message =
      ("predicate connector must be 'AND' or 'OR', got " ++ "'") ++ s ++ ("'" ++ "") := rfl
  have hletters : ∀ w ∈ words, w.1.toList ⊆ "ANDOR".toList := by decide
  rw [parse_eq]
  exact readsWords_readWord _ _ hquoted (by decide) (by decide)
    fun w hw t => Text.upper_eq_iff (hletters w hw)

end Connector

namespace DropKind

def words : List (String × DropKind) :=
  [("database", .database), ("table", .table), ("view", .view)]

theorem parse_eq : parse = readWord Text.lower words .dropKind := by
  funext s
  unfold parse readWord
  generalize Text.lower (Text.trim s) = t
  split
  · rfl
  · rfl
  · rfl
  · next hdatabase htable hview =>
    have hlookup : words.lookup t = none := by
      rw [List.lookup_eq_none_iff]
      simpa [words] using And.intro hdatabase (And.intro htable hview)
    rw [hlookup]

theorem readsWords_parse : ReadsWords parse words .dropKind := by
  have hquoted (s : String) : (ArgumentFault.dropKind s).message =
      ("cannot DROP " ++ "'") ++ s ++ ("'" ++ ": expected database, table or view") := rfl
  have hletters : ∀ w ∈ words, w.1.toList ⊆ "abcdeilnstvw".toList := by decide
  rw [parse_eq]
  exact readsWords_readWord _ _ hquoted (by decide) (by decide)
    fun w hw t => Text.lower_eq_iff (hletters w hw)

/-- It makes no difference which capital sigmas end a word. -/
theorem parse_eq_lowerWith (final : List Char → List Char → Bool) :
    parse = readWord (Text.lowerWith final) words .dropKind := by
  rw [parse_eq]
  exact readWord_lower_eq final (by decide) (by decide)

end DropKind

namespace UnionMode

/-- No word at all is the mode that drops rows which occur twice. -/
def words : List (String × UnionMode) :=
  [("", .distinct), ("distinct", .distinct), ("all", .all)]

theorem parse_eq : parse = readWord Text.lower words .unionMode := by
  funext s
  unfold parse readWord
  generalize Text.lower (Text.trim s) = t
  split
  · rfl
  · rfl
  · rfl
  · next hempty hdistinct hall =>
    have hlookup : words.lookup t = none := by
      rw [List.lookup_eq_none_iff]
      simpa [words] using And.intro hempty (And.intro hdistinct hall)
    rw [hlookup]

theorem readsWords_parse : ReadsWords parse words .unionMode := by
  have hquoted (s : String) : (ArgumentFault.unionMode s).message =
      ("union mode must be a boolean or 'all', got " ++ "'") ++ s ++ ("'" ++ "") := rfl
  have hletters : ∀ w ∈ words, w.1.toList ⊆ "abcdeilnstvw".toList := by decide
  rw [parse_eq]
  exact readsWords_readWord _ _ hquoted (by decide) (by decide)
    fun w hw t => Text.lower_eq_iff (hletters w hw)

/-- It makes no difference which capital sigmas end a word. -/
theorem parse_eq_lowerWith (final : List Char → List Char → Bool) :
    parse = readWord (Text.lowerWith final) words .unionMode := by
  rw [parse_eq]
  exact readWord_lower_eq final (by decide) (by decide)

end UnionMode

/-- Connectors are named by `AND` and `OR`, kinds of objects by `database`, `table` and `view`, and
union modes by `distinct`, `all` or nothing at all, each up to the case of ASCII letters and blanks
around it; every other text is refused. -/
theorem choices_read_words :
    ReadsWords Connector.parse Connector.words .connector ∧
      ReadsWords DropKind.parse DropKind.words .dropKind ∧
      ReadsWords UnionMode.parse UnionMode.words .unionMode :=
  ⟨Connector.readsWords_parse, DropKind.readsWords_parse, UnionMode.readsWords_parse⟩

/-- The lower case of `İ` is `i` and a combining dot, so this is not the word `view`. -/
example :
    (DropKind.parse "\u3000vIEW ").toOption = some .view ∧
      (DropKind.parse "VİEW").toOption = none := by decide +kernel

end BoundSql
