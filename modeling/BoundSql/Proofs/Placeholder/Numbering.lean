import BoundSql.Proofs.Builder.Orderly
import BoundSql.Proofs.Builder.Requests

/-!
# Numbered placeholders read back

How a database finds the numbered placeholders of a text: each `$` begins one, and its number is the
longest run of digits behind the sign.

If callers write neither `$` nor `?` into the texts they supply, and put no digit in front of raw
text, then what a database that numbers its parameters receives has exactly the placeholders
`$1`, `$2`, … up to the number of its parameters (`placeholderNumbers_of_reached`). The values play
no part in this: they are parameters, and no part of the text.

    placeholderNumbers "a = $1 AND b IN ($2,$10)" = ["1", "2", "10"]
-/

namespace BoundSql

/-! ### Scanning for numbers -/

/-- The digits behind each dollar sign. A number holds no dollar sign, so the scan may go on right
behind the sign. -/
def scanNumbers : List Char → List (List Char)
  | [] => []
  | c :: cs => if c = '$' then cs.takeWhile Char.isDigit :: scanNumbers cs else scanNumbers cs

/-- The numbers of the placeholders of a text, as they are written, in order. -/
def placeholderNumbers (sql : String) : List String := (scanNumbers sql.toList).map String.ofList

/-- Text without dollar signs is passed over. -/
theorem scanNumbers_append {cs : List Char} (h : ∀ c ∈ cs, c ≠ '$') (rest : List Char) :
    scanNumbers (cs ++ rest) = scanNumbers rest := by
  induction cs with
  | nil => rfl
  | cons c cs ih =>
    rw [List.forall_mem_cons] at h
    rw [List.cons_append, scanNumbers, if_neg h.1, ih h.2]

/-- A number ends where no digit follows. -/
theorem takeWhile_isDigit_append {digits rest : List Char} (hd : ∀ c ∈ digits, c.isDigit = true)
    (hr : ∀ c ∈ rest.head?, c.isDigit = false) :
    (digits ++ rest).takeWhile Char.isDigit = digits := by
  rw [List.takeWhile_append_of_pos hd]
  cases rest with
  | nil => simp
  | cons c rest =>
    have hc : c.isDigit = false := hr c rfl
    simp [hc]

theorem scanNumbers_number {digits rest : List Char} (hd : ∀ c ∈ digits, c.isDigit = true)
    (hr : ∀ c ∈ rest.head?, c.isDigit = false) :
    scanNumbers ('$' :: (digits ++ rest)) = digits :: scanNumbers rest := by
  have hne : ∀ c ∈ digits, c ≠ '$' := by
    rintro c hc rfl
    exact absurd (hd '$' hc) (by decide)
  rw [scanNumbers, if_pos rfl, takeWhile_isDigit_append hd hr, scanNumbers_append hne]

/-! ### Numbered text, symbol by symbol -/

namespace Symbol

/-- What is written for symbols if scalars become numbered placeholders. The numbers go on behind
`bound`. -/
def numbered : Nat → List Symbol → List Char
  | _, [] => []
  | bound, .char c :: xs => c :: numbered bound xs
  | bound, .placeholder :: xs => '?' :: numbered bound xs
  | bound, .bind _ :: xs => '$' :: (Nat.toDigits 10 (bound + 1) ++ numbered (bound + 1) xs)

theorem numbered_ofText_append (bound : Nat) (s : String) (xs : List Symbol) :
    numbered bound (ofText s ++ xs) = s.toList ++ numbered bound xs := by
  rw [ofText]
  induction s.toList with
  | nil => rfl
  | cons c cs ih => simp [numbered, ih]

end Symbol

namespace Fragment

theorem toList_numbered_renderParts (bound : Nat) (ps : List Part) :
    (renderParts (.parameterized .numbered) bound ps).sql.toList =
      Symbol.numbered bound (ps.flatMap Part.symbols) := by
  induction ps generalizing bound with
  | nil => rfl
  | cons p ps ih =>
    rw [List.flatMap_cons]
    cases p with
    | raw s =>
      rw [Part.symbols, Symbol.numbered_ofText_append, ← ih, renderParts, String.toList_append]
    | placeholder =>
      rw [renderParts, String.toList_append, ih]
      rfl
    | bind v =>
      simp [renderParts, Config.parameterized, PlaceholderStyle.placeholder, Part.symbols,
        Symbol.numbered, ← ih, Nat.repr_eq_ofList_toDigits]

theorem params_parameterized_render (style : PlaceholderStyle) (a : Fragment) :
    (a.render (.parameterized style)).params = a.binds := by
  show (renderParts _ 0 a.parts).params = _
  rw [renderParts_eq_render, ← scalars_skeleton]
  rfl

/-- A placeholder among the symbols is counted. -/
theorem placeholder_notMem_symbols {a : Fragment} (h : a.placeholderCount = 0) :
    .placeholder ∉ a.symbols := by
  intro hmem
  obtain ⟨p, hp, hsymbol⟩ := List.mem_flatMap.mp hmem
  cases p with
  | raw s => simp [Part.symbols, Symbol.ofText] at hsymbol
  | bind v => simp [Part.symbols] at hsymbol
  | placeholder => exact List.count_eq_zero.mp h hp

end Fragment

/-! ### Reading numbered text -/

/-- No dollar sign and no question mark in raw text, and no digit behind a bound scalar. -/
def numberFree : TextRule where
  allowed c := c ≠ '$' ∧ c ≠ '?'
  follows x := ∀ c, x = .char c → c.isDigit = false
  allowed_own c h := by
    constructor
    · rintro rfl
      exact absurd h (by decide)
    · rintro rfl
      exact absurd h (by decide)
  follows_own c _ h := by
    rintro _ ⟨⟩
    exact h

/-- No digit is written first for symbols that may stand behind a bound scalar. -/
theorem isDigit_head?_numbered {l : List Symbol} (h : ∀ x ∈ l.head?, numberFree.follows x)
    (bound : Nat) : ∀ c ∈ (Symbol.numbered bound l).head?, c.isDigit = false := by
  intro c hc
  cases l with
  | nil => cases hc
  | cons x l =>
    cases x with
    | char d =>
      cases hc
      exact h (.char c) rfl c rfl
    | bind v | placeholder =>
      cases hc
      decide

theorem scanNumbers_numbered : ∀ {l : List Symbol} (bound : Nat),
    (∀ c, .char c ∈ l → numberFree.allowed c) → l.IsChain numberFree.Seam →
    scanNumbers (Symbol.numbered bound l) =
      (List.range' (bound + 1) (l.filterMap Symbol.bound?).length).map (Nat.toDigits 10)
  | [], _, _, _ => rfl
  | x :: l, bound, h, hl => by
    have hrest (k : Nat) := scanNumbers_numbered k (fun c hc => h c (List.mem_cons_of_mem x hc))
      hl.tail
    cases x with
    | char c =>
      have hc : c ≠ '$' := (h c List.mem_cons_self).1
      simpa [Symbol.numbered, Symbol.bound?, scanNumbers, List.filterMap_cons, hc] using hrest bound
    | placeholder =>
      simpa [Symbol.numbered, Symbol.bound?, scanNumbers, List.filterMap_cons] using hrest bound
    | bind v =>
      -- a digit behind the scalar would be read as part of its number
      have hnext : ∀ y ∈ l.head?, numberFree.follows y := by
        intro y hy
        obtain ⟨l', rfl⟩ := List.head?_eq_some_iff.mp hy
        exact (List.isChain_cons_cons.mp hl).1 rfl
      have hdigits : ∀ c ∈ Nat.toDigits 10 (bound + 1), c.isDigit = true := by
        intro c hc
        exact Number.isDigit_of_mem_toDigits hc
      rw [Symbol.numbered, scanNumbers_number hdigits (isDigit_head?_numbered hnext _),
        hrest (bound + 1)]
      rfl

/-- Only a placeholder of the caller or raw text puts a question mark into numbered text. -/
theorem question_notMem_numbered {l : List Symbol} (bound : Nat)
    (h : ∀ c, .char c ∈ l → numberFree.allowed c) (hl : .placeholder ∉ l) :
    '?' ∉ Symbol.numbered bound l := by
  induction l generalizing bound with
  | nil => exact List.not_mem_nil
  | cons x l ih =>
    rw [List.mem_cons, not_or] at hl
    have hrest (k : Nat) : '?' ∉ Symbol.numbered k l :=
      ih k (fun c hc => h c (List.mem_cons_of_mem x hc)) hl.2
    cases x with
    | char c =>
      have hc : c ≠ '?' := (h c List.mem_cons_self).2
      simp [Symbol.numbered, hrest, hc.symm]
    | placeholder => exact absurd rfl hl.1
    | bind v =>
      have hdigits : '?' ∉ Nat.toDigits 10 (bound + 1) := by
        intro hmem
        exact absurd (Number.isDigit_of_mem_toDigits hmem) (by decide)
      simp [Symbol.numbered, hrest, hdigits]

/-- The placeholders of an orderly fragment in which every value is bound. -/
theorem placeholderNumbers_render {a : Fragment} (ha : a.Orderly numberFree)
    (hcount : a.placeholderCount = 0) :
    let statement := a.render (.parameterized .numbered)
    '?' ∉ statement.sql.toList ∧
      placeholderNumbers statement.sql =
        (List.range statement.params.length).map fun k => Nat.repr (k + 1) := by
  intro statement
  have htext : statement.sql.toList = Symbol.numbered 0 a.symbols :=
    Fragment.toList_numbered_renderParts 0 a.parts
  constructor
  · rw [htext]
    exact question_notMem_numbered 0 ha.allowed (Fragment.placeholder_notMem_symbols hcount)
  · rw [placeholderNumbers, htext, scanNumbers_numbered 0 ha.allowed ha.spaced,
      ← Fragment.binds_eq_filterMap_symbols, Fragment.params_parameterized_render,
      List.range'_eq_map_range, List.map_map, List.map_map]
    apply List.map_congr_left
    intro k _
    show String.ofList (Nat.toDigits 10 (0 + 1 + k)) = Nat.repr (k + 1)
    rw [Nat.repr_eq_ofList_toDigits, Nat.zero_add, Nat.add_comm]

/-! ### What databases receive -/

/-- The placeholder style of a step's executor. -/
def Step.style? {m : Type → Type} {ρ : Type} : Step m ρ → Option PlaceholderStyle
  | .call _ => none
  | .fetchAll executor | .execute executor => some executor.style

theorem Builder.statementFor_of_request? {m : Type → Type} {ρ : Type} {b : Builder} {s : Step m ρ}
    {r : Request} {style : PlaceholderStyle} (h : b.request? s = some r)
    (hstyle : s.style? = some style) : b.statementFor style = .ok r.statement := by
  cases s with
  | call c => cases hstyle
  | fetchAll executor | execute executor =>
    cases hstyle
    rw [request?] at h
    cases hstatement : b.statementFor executor.style with
    | error e =>
      rw [hstatement] at h
      cases h
    | ok statement =>
      rw [hstatement] at h
      cases h
      rfl

/-- A call that leaves quoting on, supplies neither `$` nor `?` in a text that is written as it is,
and puts no digit in front of raw text. -/
structure Call.NumberFree (c : Call) : Prop where
  quoting : c ≠ .autoQuoteValues false
  texts : ∀ s ∈ c.texts, '$' ∉ s.toList ∧ '?' ∉ s.toList
  head : ∀ s, c = .appendRaw s → ∀ ch ∈ s.toList.head?, ch.isDigit = false

theorem Call.NumberFree.keeps {c : Call} (h : c.NumberFree)
    (hc : ∀ f ∈ c.statements, f.Appendable numberFree) : c.Keeps numberFree where
  quoting := h.quoting
  texts s hs ch hch := by
    constructor
    · rintro rfl
      exact (h.texts s hs).1 hch
    · rintro rfl
      exact (h.texts s hs).2 hch
  statements := hc
  head s hs ch hch := by
    rintro _ ⟨⟩
    exact h.head s hs ch hch

/-- Whatever a database that numbers its parameters is asked by a builder to which such calls lead,
the text holds no question mark, and the placeholders that are read in it are numbered from one up to
the number of the parameters, in order. -/
theorem placeholderNumbers_of_reached {m : Type → Type} {ρ : Type} {b : Builder}
    (h : Reached (fun config => config.autoQuoteValues = true) Call.NumberFree b) {s : Step m ρ}
    {r : Request} (hr : b.request? s = some r) (hstyle : s.style? = some .numbered) :
    '?' ∉ r.statement.sql.toList ∧
      placeholderNumbers r.statement.sql =
        (List.range r.statement.params.length).map fun k => Nat.repr (k + 1) := by
  have hsql : b.sql.Orderly numberFree :=
    (h.keeps (fun _ hc => hc) fun _ hc hf => hc.keeps hf).sql.toOrderly
  obtain ⟨hstatement, hbound⟩ :=
    Builder.render_of_statementFor (Builder.statementFor_of_request? hr hstyle)
  rw [hstatement]
  exact placeholderNumbers_render hsql (hbound rfl)

/-- Nine values and a statement in a list, the statement once more behind raw text, and values that
look like placeholders. -/
theorem placeholderNumbers_of_misleading_values :
    let admins := (((Builder.ofConfig {}).call
      (.filter [.ofValue "name" (.scalar (.text "$1"))])).builder.call
      (.select false [.plain "admins"] ["id"] {})).builder
    let ids : List Value := (List.range 9).map fun n => .scalar (.int (Int64.ofNat n))
    let users := (((((Builder.ofConfig {}).call
      (.filter [.inList "id" (ids ++ [.statement admins.sql])])).builder.call
      (.update [.plain "users"] (.pairs [("note", .scalar (.text "5?"))]) none)).builder.call
      (.appendRaw "; ")).builder.call
      (.append admins.sql)).builder
    Reached (fun config => config.autoQuoteValues = true) Call.NumberFree users ∧
      ∃ r, users.request? (.fetchAll numberedDatabase) = some r ∧
        r.statement.sql = "UPDATE users SET note=$1 WHERE id IN ($2,$3,$4,$5,$6,$7,$8,$9,$10," ++
          "(SELECT id FROM admins WHERE name = $11)); SELECT id FROM admins WHERE name = $12" ∧
        '?' ∉ r.statement.sql.toList ∧
        placeholderNumbers r.statement.sql =
          ["1", "2", "3", "4", "5", "6", "7", "8", "9", "10", "11", "12"] := by
  intro admins ids users
  have hadmins : Reached (fun config => config.autoQuoteValues = true) Call.NumberFree admins := by
    refine .call (.call (.new rfl) ⟨by simp, by decide, by simp⟩ ?_) ⟨by simp, by decide, by simp⟩ ?_
    · exact List.forall_mem_nil _
    · exact List.forall_mem_nil _
  have husers : Reached (fun config => config.autoQuoteValues = true) Call.NumberFree users := by
    refine .call (.call (.call (.call (.new rfl) ⟨by simp, by decide, by simp⟩ ?_)
      ⟨by simp, by decide, by simp⟩ ?_) ⟨by simp, by decide, ?_⟩ ?_) ⟨by simp, by decide, by simp⟩ ?_
    · exact List.forall_mem_singleton.mpr (.of hadmins)
    · exact List.forall_mem_nil _
    · rintro _ ⟨⟩ ch hch
      obtain rfl : ';' = ch := Option.some.inj hch
      rfl
    · exact List.forall_mem_nil _
    · exact List.forall_mem_singleton.mpr (.of hadmins)
  have hrequest : users.request? (.fetchAll numberedDatabase) = some _ := rfl
  obtain ⟨hquestion, hnumbers⟩ := placeholderNumbers_of_reached husers hrequest rfl
  refine ⟨husers, _, hrequest, by decide +kernel, hquestion, hnumbers.trans ?_⟩
  decide

end BoundSql
