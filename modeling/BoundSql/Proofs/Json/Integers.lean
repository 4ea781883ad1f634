import BoundSql.Proofs.Json.ReadBack
import BoundSql.Proofs.Number.IntegerText
import BoundSql.Proofs.Number.Shortest
import BoundSql.Proofs.Parameter.NumericValue

/-!
# Integers read from JSON

The digits of an integer are a JSON number, and for every integer between -2⁶³ and 2⁶⁴ - 1 that
number is read as a scalar. Below 2⁶³ it is the scalar that is built of the integer, and it keeps
the digits. From 2⁶³ on the scalar built of the integer keeps the digits as a text, and so do the
entries of a keyword clause, but the scalar read is a double-precision number: it has the digits of
the integer only if that is the shortest one that is read as the same word
(`integers_read_from_json`).
-/

namespace BoundSql

open Number (Binary64 IsShortest integerText naturalText)

/-! ### The digits of an integer as a JSON text -/

namespace Json

/-- Digits and the minus sign neither end a word nor are tokens of their own. -/
theorem Scanner.step_word {c : Char} (h : c = '-' ∨ c.isDigit = true) (tokens : List Token)
    (run : List Char) : step ⟨tokens, .word run⟩ c = some ⟨tokens, .word (c :: run)⟩ := by
  rcases h with rfl | hdigit
  · rfl
  · have hne {d : Char} (hd : d.isDigit = false) : c ≠ d := by
      rintro rfl
      rw [hd] at hdigit
      cases hdigit
    have hspace : isSpace c = false := by
      simp only [isSpace, Bool.or_eq_false_iff, beq_eq_false_iff_ne]
      exact ⟨⟨⟨hne rfl, hne rfl⟩, hne rfl⟩, hne rfl⟩
    have hpunctuation : Token.ofPunctuation? c = none := by
      unfold Token.ofPunctuation?
      split
      case h_7 => rfl
      all_goals exact absurd hdigit (by decide)
    simp only [step, hspace, Bool.false_eq_true, if_false, if_neg (hne (d := '"') rfl),
      hpunctuation]

theorem Scanner.foldlM_step_word {cs : List Char} (h : ∀ c ∈ cs, c = '-' ∨ c.isDigit = true)
    (tokens : List Token) (run : List Char) :
    cs.foldlM step ⟨tokens, .word run⟩ = some ⟨tokens, .word (cs.reverse ++ run)⟩ := by
  induction cs generalizing run with
  | nil => rfl
  | cons c cs ih =>
    rw [List.foldlM_cons, step_word (h c List.mem_cons_self), Option.bind_eq_bind,
      Option.bind_some, ih fun d hd => h d (List.mem_cons_of_mem c hd), List.reverse_cons,
      List.append_assoc]
    rfl

/-- Digits that begin with a zero are not those of a number, except for the zero alone. -/
theorem NumberToken.isWhole_toDigits (n : Nat) : isWhole (Nat.toDigits 10 n) = true := by
  have hdigits := Number.isDigits_toDigits n
  have hvalue := Number.digitsValue_toDigits n
  cases hcs : Nat.toDigits 10 n with
  | nil => exact absurd hcs Nat.toDigits_ne_nil
  | cons c cs =>
    rw [hcs] at hdigits hvalue
    by_cases hzero : c = '0' ∧ cs = []
    · rw [hzero.1, hzero.2]
      rfl
    · have hc : c ≠ '0' := by
        rintro rfl
        have hpos : 0 < cs.length := List.length_pos_iff.mpr fun hnil => hzero ⟨rfl, hnil⟩
        have htail : Number.isDigits cs = true := by
          rw [Number.isDigits, List.all_cons, Bool.and_eq_true] at hdigits
          exact hdigits.2
        have hlt : n < 10 ^ cs.length := by
          rw [← hvalue, Number.digitsValue_cons]
          exact (Nat.zero_mul _ ▸ Nat.zero_add _ ▸ Number.digitsValue_lt htail)
        have hlength := (Nat.length_toDigits_le_iff (by decide) hpos).mpr hlt
        rw [hcs, List.length_cons] at hlength
        omega
      rw [isWhole, hdigits, Bool.and_true]
      · exact bne_iff_ne.mpr hc
      · rintro rfl rfl
        exact hc rfl

/-- The digits of an integer are a number without point and exponent. -/
theorem NumberToken.parse?_integerText (n : Int) :
    parse? (integerText n).toList = some (ofInt n) := by
  have hall : ∀ c ∈ Nat.toDigits 10 n.natAbs, c.isDigit = true :=
    fun c hc => Number.isDigit_of_mem_toDigits hc
  have hwhole (negative : Bool) :
      (if isWhole ((Nat.toDigits 10 n.natAbs).takeWhile Char.isDigit) then
        rest? negative ((Nat.toDigits 10 n.natAbs).takeWhile Char.isDigit)
          ((Nat.toDigits 10 n.natAbs).dropWhile Char.isDigit) else none) =
        some ⟨negative, Nat.toDigits 10 n.natAbs, [], none⟩ := by
    rw [List.takeWhile_eq_self_iff.mpr hall, List.dropWhile_eq_nil_iff.mpr hall,
      if_pos (isWhole_toDigits _)]
    rfl
  rw [Number.toList_integerText, ofInt]
  by_cases hn : n < 0
  · rw [decide_eq_true hn]
    exact hwhole true
  · rw [decide_eq_false hn]
    simp only [Bool.false_eq_true, if_false, List.nil_append]
    rw [parse?]
    · exact hwhole false
    · intro cs hcs
      have hminus := hall '-' (hcs ▸ List.mem_cons_self)
      cases hminus

/-- None of the three words is made of digits. -/
theorem Token.ofWord?_integerText (n : Int) :
    ofWord? (integerText n).toList = some (.number (.ofInt n)) := by
  have hword {word : List Char} {c : Char} (hc : c ∈ word) (hminus : c ≠ '-')
      (hdigit : c.isDigit = false) : (integerText n).toList ≠ word := by
    rintro rfl
    rcases Number.mem_integerText hc with rfl | hc
    · exact hminus rfl
    · rw [hdigit] at hc
      cases hc
  have hnull : (integerText n).toList ≠ "null".toList := hword (c := 'n') (by decide) (by decide) rfl
  have htrue : (integerText n).toList ≠ "true".toList := hword (c := 't') (by decide) (by decide) rfl
  have hfalse : (integerText n).toList ≠ "false".toList :=
    hword (c := 'f') (by decide) (by decide) rfl
  rw [ofWord?, if_neg hnull, if_neg htrue, if_neg hfalse, NumberToken.parse?_integerText]
  rfl

/-- A text of digits is the number alone. -/
theorem Tree.parse?_integerText (n : Int) :
    parse? (integerText n) = some (.number (.ofInt n)) := by
  have hne : (integerText n).toList.isEmpty ≠ true := by
    rw [ne_eq, List.isEmpty_iff, Number.toList_integerText]
    exact List.append_ne_nil_of_right_ne_nil _ Nat.toDigits_ne_nil
  have hend : Scanner.endWord [] ((integerText n).toList.reverse ++ []) =
      some [.number (.ofInt n)] := by
    rw [List.append_nil, Scanner.endWord, List.isEmpty_reverse, if_neg hne, List.reverse_reverse,
      Token.ofWord?_integerText]
    rfl
  rw [parse?, scan, Scanner.foldlM_step_word fun c hc => Number.mem_integerText hc,
    Option.bind_eq_bind, Option.bind_some]
  simp only [Scanner.finish, hend]
  rfl

end Json

/-! ### Scalars of integers -/

/-- The scalars that are built of an integer: of one of 64 signed bits, or of a natural number of 64
bits. -/
inductive Scalar.IsBuiltFrom : Scalar → Int → Prop
  | int64 (n : Int64) : IsBuiltFrom (.int n) n.toInt
  | uint64 (n : UInt64) : IsBuiltFrom (.ofUInt64 n) n.toNat

theorem Scalar.IsBuiltFrom.plain_eq {s : Scalar} {n : Int} (h : s.IsBuiltFrom n) :
    s.plain = integerText n := by
  cases h with
  | int64 n => rfl
  | uint64 n => exact Parameter.plain_ofUInt64 n

/-- Whichever way it is built, an integer below 2⁶³ becomes an integer, and any other a text. -/
theorem Scalar.IsBuiltFrom.eq {s : Scalar} {n : Int} (h : s.IsBuiltFrom n) :
    s = if n < 2 ^ 63 then .int (Int64.ofInt n) else .text (naturalText n.toNat) := by
  cases h with
  | int64 n => rw [if_pos n.toInt_lt, Int64.ofInt_toInt]
  | uint64 n =>
    have hpow : Number.pow2 63 = 2 ^ 63 := rfl
    rw [ofUInt64, hpow]
    by_cases hn : n.toNat < 2 ^ 63
    · rw [if_pos hn, if_pos (by omega)]
      rfl
    · rw [if_neg hn, if_neg (by omega), Int.toNat_natCast]

theorem Scalar.exists_isBuiltFrom {n : Int} (hlow : -2 ^ 63 ≤ n) (hhigh : n < 2 ^ 64) :
    ∃ s : Scalar, s.IsBuiltFrom n := by
  by_cases hn : n < 2 ^ 63
  · have h := IsBuiltFrom.int64 (Int64.ofInt n)
    rw [Int64.toInt_ofInt_of_le hlow hn] at h
    exact ⟨_, h⟩
  · have h := IsBuiltFrom.uint64 (UInt64.ofNat n.toNat)
    have hsize : n.toNat < UInt64.size := by
      change n.toNat < 2 ^ 64
      omega
    rw [UInt64.toNat_ofNat_of_lt' hsize, Int.toNat_of_nonneg (by omega)] at h
    exact ⟨_, h⟩

/-- What an integer is read as. -/
theorem Scalar.ofJson?_ofInt {n : Int} (hlow : -2 ^ 63 ≤ n) (hhigh : n < 2 ^ 64) :
    ofJson? (.number (.ofInt n)) =
      some (if n < 2 ^ 63 then .int (Int64.ofInt n) else .float (.ofInt n)) := by
  rw [ofJson?, Json.NumberToken.value?_ofInt hlow hhigh]
  rfl

/-- A number is a value in the way it is a scalar. -/
theorem Value.ofJson?_number (levels : Nat) (t : Json.NumberToken) :
    ofJson? levels (.number t) = (Scalar.ofJson? (.number t)).map .scalar := by
  simp only [ofJson?, Scalar.ofJson?]
  cases t.value? with
  | none => rfl
  | some value =>
    cases value with
    | float x => rfl
    | integer n => by_cases hn : n < Number.pow2 63 <;> simp only [hn, if_true, if_false] <;> rfl

theorem KeywordClauses.entries?_ofInt {n : Int} (hlow : 0 ≤ n) (hhigh : n < 2 ^ 64) :
    entries? (.number (.ofInt n)) = some [integerText n] := by
  rw [entries?, Json.NumberToken.value?_ofInt (by omega) hhigh]
  exact if_pos hlow

/-- **Integers are read from JSON as they are built, up to 2⁶³ - 1.** From 2⁶³ on a
double-precision number is read instead, and what is written for it is the shortest number that is
read as the same word. -/
theorem integers_read_from_json {n : Int} (hlow : -2 ^ 63 ≤ n) (hhigh : n < 2 ^ 64) :
    ∃ (t : Json.Tree) (read built : Scalar),
      Json.Tree.parse? (integerText n) = some t ∧
      Scalar.ofJson? t = some read ∧ (∀ levels, Value.ofJson? levels t = some (.scalar read)) ∧
      built.IsBuiltFrom n ∧ built.plain = integerText n ∧
      (read = built ↔ n < 2 ^ 63) ∧
      (read.plain = integerText n ↔ n < 2 ^ 63 ∨ IsShortest n.toNat) ∧
      (2 ^ 63 ≤ n → read = .float (.ofInt n) ∧
        ∃ v : Nat, read.plain = naturalText v ∧ Binary64.ofInt v = Binary64.ofInt n ∧
          IsShortest v ∧ 1000 ∣ v) ∧
      (0 ≤ n → KeywordClauses.entries? t = some [integerText n]) := by
  obtain ⟨built, hbuilt⟩ := Scalar.exists_isBuiltFrom hlow hhigh
  have hread := Scalar.ofJson?_ofInt hlow hhigh
  refine ⟨_, _, built, Json.Tree.parse?_integerText n, hread,
    fun levels => by rw [Value.ofJson?_number, hread]; rfl, hbuilt, hbuilt.plain_eq, ?_, ?_, ?_,
    fun hn => KeywordClauses.entries?_ofInt hn hhigh⟩
  · rw [hbuilt.eq]
    by_cases hn : n < 2 ^ 63
    · rw [if_pos hn, if_pos hn, eq_self_iff_true]
      simp only [hn]
    · rw [if_neg hn, if_neg hn]
      simp only [hn, reduceCtorEq]
  · by_cases hn : n < 2 ^ 63
    · rw [if_pos hn, Scalar.plain, Int64.toInt_ofInt_of_le hlow hn]
      simp only [hn, true_or]
    · obtain ⟨k, rfl⟩ := Int.eq_ofNat_of_zero_le (show 0 ≤ n by omega)
      rw [if_neg hn, Scalar.plain, Number.integerText_natCast,
        Binary64.text_ofInt_eq_iff (by omega) (by omega)]
      simp only [hn, false_or, Int.toNat_natCast]
  · intro hn
    obtain ⟨k, rfl⟩ := Int.eq_ofNat_of_zero_le (show 0 ≤ n by omega)
    rw [if_neg (by omega)]
    exact ⟨rfl, Binary64.exists_isShortest (by omega) (by omega)⟩

/-- The greatest integer is built of its digits, and read as a number that is written with others. -/
theorem integers_read_from_json_of_greatest :
    -2 ^ 63 ≤ (18446744073709551615 : Int) ∧ (18446744073709551615 : Int) < 2 ^ 64 ∧
      ∃ (t : Json.Tree) (read built : Scalar),
        Json.Tree.parse? "18446744073709551615" = some t ∧ Scalar.ofJson? t = some read ∧
        read.plain = "18446744073709552000" ∧ built.IsBuiltFrom 18446744073709551615 ∧
        built.plain = "18446744073709551615" ∧ read ≠ built := by
  have hlow : -2 ^ 63 ≤ (18446744073709551615 : Int) := by norm_num
  have hhigh : (18446744073709551615 : Int) < 2 ^ 64 := by norm_num
  obtain ⟨t, read, built, hparse, hread, -, hbuilt, hplain, hiff, -, hfloat, -⟩ :=
    integers_read_from_json hlow hhigh
  refine ⟨hlow, hhigh, t, read, built, hparse, hread, ?_, hbuilt, hplain, ?_⟩
  · rw [(hfloat (by norm_num)).1, Scalar.plain]
    decide +kernel
  · intro heq
    exact absurd (hiff.mp heq) (by norm_num)

/-- So not every integer of 64 bits keeps its digits. -/
theorem digits_lost_from_json :
    ¬∀ n : Int, -2 ^ 63 ≤ n → n < 2 ^ 64 →
      ((Json.Tree.parse? (integerText n)).bind Scalar.ofJson?).map Scalar.plain =
        some (integerText n) := by
  intro h
  have hgreatest := h 18446744073709551615 (by norm_num) (by norm_num)
  rw [Json.Tree.parse?_integerText, Option.bind_some,
    Scalar.ofJson?_ofInt (by norm_num) (by norm_num)] at hgreatest
  exact absurd hgreatest (by decide +kernel)

end BoundSql
