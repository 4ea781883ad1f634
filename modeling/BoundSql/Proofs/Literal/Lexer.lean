import BoundSql.Proofs.Fragment.Orderly
import BoundSql.Proofs.Number.Digits

/-!
# String literals in a text

How a database finds the string literals of a statement: outside a literal a single quote opens one;
inside, two quotes stand for one, and a quote alone closes the literal. A text that ends inside a
literal has no reading.

An orderly fragment that is rendered with its texts escaped is read back exactly
(`stringLiterals_render`): its literals are the bound scalars that are written in quotes.

    stringLiterals "a = 'it''s', b = ''" = ["it's", ""]      stringLiterals "a = 'x" = none
-/

namespace BoundSql

/-- Read the literals from a place outside a literal, or inside one of which the given characters
have been read. -/
def scanLiterals : Option (List Char) → List Char → Option (List (List Char))
  | none, [] => some []
  | none, c :: cs => if c = '\'' then scanLiterals (some []) cs else scanLiterals none cs
  | some _, [] => none
  | some read, '\'' :: '\'' :: cs => scanLiterals (some (read ++ ['\''])) cs
  | some read, c :: cs =>
    if c = '\'' then (scanLiterals none cs).map (read :: ·) else scanLiterals (some (read ++ [c])) cs

/-- The contents of the string literals of a text, in order; `none` if it ends inside a literal. -/
def stringLiterals (sql : String) : Option (List String) :=
  (scanLiterals none sql.toList).map (·.map String.ofList)

/-- The plain text of a scalar that is written in quotes when it is inlined, as all but integers
are. -/
def Scalar.quotedText? : Scalar → Option String
  | .int _ => none
  | s => some s.plain

/-- Every quote twice, everything else once. -/
def doubleQuotes (cs : List Char) : List Char :=
  cs.flatMap fun c => if c = '\'' then ['\'', '\''] else [c]

theorem doubleQuotes_cons (c : Char) (cs : List Char) :
    doubleQuotes (c :: cs) = (if c = '\'' then ['\'', '\''] else [c]) ++ doubleQuotes cs := rfl

theorem doubleQuotes_eq_self {cs : List Char} (h : ∀ c ∈ cs, c ≠ '\'') : doubleQuotes cs = cs := by
  induction cs with
  | nil => rfl
  | cons c cs ih =>
    rw [List.forall_mem_cons] at h
    rw [doubleQuotes_cons, if_neg h.1, ih h.2, List.singleton_append]

/-! ### Scanning -/

/-- Outside a literal, text without quotes is passed over. -/
theorem scanLiterals_plain {cs : List Char} (h : ∀ c ∈ cs, c ≠ '\'') (rest : List Char) :
    scanLiterals none (cs ++ rest) = scanLiterals none rest := by
  induction cs with
  | nil => rfl
  | cons c cs ih =>
    rw [List.forall_mem_cons] at h
    rw [List.cons_append, scanLiterals, if_neg h.1, ih h.2]

/-- Inside a literal, text whose quotes are written twice is read as it was. -/
theorem scanLiterals_doubleQuotes (read cs rest : List Char) :
    scanLiterals (some read) (doubleQuotes cs ++ rest) = scanLiterals (some (read ++ cs)) rest := by
  -- what has been read grows along the text
  induction cs generalizing read with
  | nil => simp [doubleQuotes]
  | cons c cs ih =>
    by_cases hc : c = '\''
    · subst hc
      simp [doubleQuotes_cons, scanLiterals, ih]
    · rw [doubleQuotes_cons, if_neg hc, List.singleton_append, List.cons_append, scanLiterals]
      · rw [if_neg hc, ih, List.append_assoc, List.singleton_append]
      · intro _ h
        exact absurd h hc

/-- A quote closes the literal if no other quote stands behind it. -/
theorem scanLiterals_close {rest : List Char} (h : ∀ c ∈ rest.head?, c ≠ '\'') (read : List Char) :
    scanLiterals (some read) ('\'' :: rest) = (scanLiterals none rest).map (read :: ·) := by
  rw [scanLiterals, if_pos rfl]
  intro cs _ hcs
  subst hcs
  exact h '\'' rfl rfl

/-- A text in quotes, with the quotes inside written twice, is one literal. -/
theorem scanLiterals_quoted {rest : List Char} (h : ∀ c ∈ rest.head?, c ≠ '\'') (cs : List Char) :
    scanLiterals none ('\'' :: (doubleQuotes cs ++ '\'' :: rest)) =
      (scanLiterals none rest).map (cs :: ·) := by
  rw [scanLiterals, if_pos rfl, scanLiterals_doubleQuotes, List.nil_append]
  exact scanLiterals_close h cs

/-! ### Numbers hold no quote -/

theorem ne_quote_of_isDigit {c : Char} (h : c.isDigit = true) : c ≠ '\'' := by
  rintro rfl
  exact absurd h (by decide)

namespace Number

theorem ne_quote_of_mem_naturalText {n : Nat} {c : Char} (h : c ∈ (naturalText n).toList) :
    c ≠ '\'' := by
  rw [toList_naturalText] at h
  exact ne_quote_of_isDigit (isDigit_of_mem_toDigits h)

theorem ne_quote_of_mem_integerText {n : Int} {c : Char} (h : c ∈ (integerText n).toList) :
    c ≠ '\'' := by
  rcases mem_integerText h with rfl | hdigit
  · decide
  · exact ne_quote_of_isDigit hdigit

/-- Zeros and a point are all that is put between digits. -/
theorem mem_positional {digits : List Char} {exponent : Int} {c : Char}
    (h : c ∈ positional digits exponent) : c ∈ digits ∨ c = '0' ∨ c = '.' := by
  unfold positional at h
  split at h
  · rcases List.mem_append.mp h with h | h
    · exact .inl h
    · exact .inr (.inl (List.eq_of_mem_replicate h))
  · dsimp only at h
    split at h
    · rw [List.mem_append, List.mem_cons] at h
      rcases h with h | h | h
      · exact .inl (List.mem_of_mem_take h)
      · exact .inr (.inr h)
      · exact .inl (List.mem_of_mem_drop h)
    · rw [List.mem_cons, List.mem_cons, List.mem_append] at h
      rcases h with h | h | h | h
      · exact .inr (.inl h)
      · exact .inr (.inr h)
      · exact .inr (.inl (List.eq_of_mem_replicate h))
      · exact .inl h

theorem ne_quote_of_mem_text {x : Binary64} {c : Char} (h : c ∈ x.text.toList) : c ≠ '\'' := by
  have hword {s : String} (hs : '\'' ∉ s.toList) (hc : c ∈ s.toList) : c ≠ '\'' := by
    rintro rfl
    exact hs hc
  have hdigits {n : Nat} {e : Int}
      (hc : c ∈ (String.ofList (positional (naturalText n).toList e)).toList) : c ≠ '\'' := by
    rw [String.toList_ofList] at hc
    rcases mem_positional hc with hc | rfl | rfl
    · exact ne_quote_of_mem_naturalText hc
    · decide
    · decide
  unfold Binary64.text at h
  split at h
  · exact hword (by decide) h
  · split at h <;> exact hword (by decide) h
  · dsimp only at h
    split at h
    · rw [String.toList_append, List.mem_append] at h
      rcases h with h | h
      · exact hword (by decide) h
      · split at h
        · exact hword (by decide) h
        · exact hdigits h
    · split at h
      · exact hword (by decide) h
      · exact hdigits h

end Number

/-! ### Scanning what is rendered -/

/-- A literal is read as the text of its scalar, whatever that is. -/
theorem scanLiterals_literal (v : Scalar) {rest : List Char} (h : ∀ c ∈ rest.head?, c ≠ '\'') :
    scanLiterals none ((v.literal true).toList ++ rest) =
      (scanLiterals none rest).map (v.quotedText?.toList.map String.toList ++ ·) := by
  cases v with
  | int n =>
    rw [Scalar.literal, scanLiterals_plain fun c hc => Number.ne_quote_of_mem_integerText hc]
    simp [Scalar.quotedText?]
  | float x =>
    -- written without escaping, which makes no difference
    have hx : doubleQuotes x.text.toList = x.text.toList :=
      doubleQuotes_eq_self fun c hc => Number.ne_quote_of_mem_text hc
    have hscan := scanLiterals_quoted h x.text.toList
    rw [hx] at hscan
    simpa [Scalar.literal, Scalar.quotedText?, Scalar.plain] using hscan
  | text s =>
    have hs : (Scalar.literal.escapeQuotes s).toList = doubleQuotes s.toList := by
      rw [Scalar.literal.escapeQuotes, String.toList_ofList, doubleQuotes]
    simpa [Scalar.literal, Scalar.quotedText?, Scalar.plain, hs] using
      scanLiterals_quoted h s.toList

/-- No quote in raw text, and no bound scalar right behind another one. -/
def quoteFree : TextRule where
  allowed c := c ≠ '\''
  follows x := x.bound? = none
  allowed_own c h := by
    rintro rfl
    exact absurd h (by decide)
  follows_own _ _ _ := rfl

/-- Symbols that keep the rule begin with no quote, unless they begin with a bound scalar. -/
theorem ne_quote_of_mem_head? {l : List Symbol} {c : Char} (hchars : ∀ c, .char c ∈ l → c ≠ '\'')
    (hhead : ∀ x ∈ l.head?, x.bound? = none)
    (h : c ∈ (l.flatMap (Symbol.literal true)).head?) : c ≠ '\'' := by
  cases l with
  | nil => cases h
  | cons x l =>
    cases x with
    | char d =>
      cases h
      exact hchars c List.mem_cons_self
    | placeholder =>
      cases h
      decide
    | bind v => exact absurd (hhead (.bind v) rfl) (by simp [Symbol.bound?])

theorem scanLiterals_symbols : ∀ {l : List Symbol}, (∀ c, .char c ∈ l → c ≠ '\'') →
    l.IsChain quoteFree.Seam →
    scanLiterals none (l.flatMap (Symbol.literal true)) =
      some (((l.filterMap Symbol.bound?).filterMap Scalar.quotedText?).map String.toList)
  | [], _, _ => rfl
  | x :: l, h, hl => by
    have hrest := scanLiterals_symbols (fun c hc => h c (List.mem_cons_of_mem x hc)) hl.tail
    cases x with
    | char c =>
      have hc : c ≠ '\'' := h c List.mem_cons_self
      simpa [Symbol.literal, Symbol.bound?, scanLiterals, List.filterMap_cons, hc] using hrest
    | placeholder => simpa [Symbol.literal, Symbol.bound?, scanLiterals, List.filterMap_cons] using hrest
    | bind v =>
      -- two literals side by side would be read as one
      have hnext : ∀ y ∈ l.head?, y.bound? = none := by
        intro y hy
        obtain ⟨l', rfl⟩ := List.head?_eq_some_iff.mp hy
        exact (List.isChain_cons_cons.mp hl).1 rfl
      have hhead : ∀ c ∈ (l.flatMap (Symbol.literal true)).head?, c ≠ '\'' := fun c hc =>
        ne_quote_of_mem_head? (fun c hc => h c (List.mem_cons_of_mem _ hc)) hnext hc
      rw [List.flatMap_cons, Symbol.literal, scanLiterals_literal v hhead, hrest]
      cases hv : v.quotedText? <;> simp [Symbol.bound?, hv]

/-- The literals of an orderly fragment, rendered with its texts escaped, are its quoted scalars. -/
theorem stringLiterals_render {config : Config} (hr : config.render = .literal)
    (he : config.escapeLiterals = true) {a : Fragment} (ha : a.Orderly quoteFree) :
    stringLiterals (a.render config).sql = some (a.binds.filterMap Scalar.quotedText?) := by
  rw [stringLiterals, Fragment.toList_literal_render hr, he,
    scanLiterals_symbols ha.allowed ha.spaced, Fragment.binds_eq_filterMap_symbols]
  simp [Function.comp_def]

end BoundSql
