import BoundSql.Proofs.Builder.Frame
import BoundSql.Proofs.Predicate.Grammar

/-!
# The order of the clauses

The grammar of the statements that have clauses, said without their compiler. Behind its tables a
`SELECT` has up to six clauses, `UPDATE` and `DELETE` have up to two, always in the same order. A
clause is there exactly if it has something to say: a predicate that waits for it, or an entry that
is not blank.

    selectTail_eq_ok_iff, changeTail_eq_ok_iff : the clauses are compiled as the grammar says
    clauses_written_in_order                   : and so is the statement, unless a list is refused
-/

namespace BoundSql

open Fragment (raw)

/-! ### Clauses -/

/-- A clause behind the tables: one with predicates or one with entries. -/
inductive TailClause where
  | predicates (keyword : ClauseKeyword)
  | entries (keyword : Keyword)

namespace TailClause

/-- The word that opens the clause. -/
def word : TailClause → String
  | predicates keyword => keyword.text
  | entries keyword => keyword.text

/-- `WHERE`, `GROUP BY`, `HAVING`, `ORDER BY`, `LIMIT`, `OFFSET`. -/
def ofSelect : List TailClause :=
  [predicates .rows, entries .groupBy, predicates .groups, entries .orderBy, entries .limit,
    entries .offset]

/-- `WHERE`, `LIMIT`. -/
def ofChange : List TailClause := [predicates .rows, entries .limit]

end TailClause

/-- The entries of a clause that are not blank, trimmed, with commas between them. -/
def KeywordClauses.entriesText (keywords : KeywordClauses) (keyword : Keyword) : String :=
  String.intercalate ", "
    (((keywords.entries keyword).filter fun entry => !Text.isBlank entry).map Text.trim)

/-! ### Lists of predicates and of entries -/

/-- A list is compiled unless one of its predicates is faulty. -/
theorem exists_compileClause_iff_sound {keyword : ClauseKeyword} {quote : Bool}
    {ps : List Predicate} : (∃ a, compileClause keyword quote ps = .ok a) ↔ Sound ps := by
  rw [sound_iff_not_firstFault]
  exact exists_ok_iff_no_fault fun _ => compileClause_eq_error_iff

/-- The clause of a list with predicates opens with its keyword. -/
theorem WritesClause.exists_body {keyword : ClauseKeyword} {quote : Bool} {ps : List Predicate}
    {a : Fragment} (h : WritesClause keyword quote ps a) (hps : ps ≠ []) :
    ∃ body, a = raw (" " ++ keyword.text ++ " ") ++ body := by
  cases h with
  | nil => exact absurd rfl hps
  | cons first later => exact ⟨_, Fragment.append_assoc _ _ _⟩

/-- An entry that is not blank is left when blank ones are taken out after trimming. -/
theorem trimmed_entries_eq (entries : List String) :
    (entries.map Text.trim).filter (· != "") =
      (entries.filter fun entry => !Text.isBlank entry).map Text.trim := by
  rw [List.filter_map]
  congr 1
  apply List.filter_congr
  intro entry _
  show (Text.trim entry != "") = !Text.isBlank entry
  cases hblank : Text.isBlank entry with
  | true =>
    rw [(Text.isBlank_iff_trim_eq_empty entry).mp hblank]
    rfl
  | false =>
    rw [Bool.not_false, bne_iff_ne]
    intro htrim
    rw [(Text.isBlank_iff_trim_eq_empty entry).mpr htrim] at hblank
    cases hblank

namespace Builder

/-- The clause has something to say. -/
def HasClause (b : Builder) (keywords : KeywordClauses) : TailClause → Prop
  | .predicates keyword => b.pending keyword ≠ []
  | .entries keyword => ∃ entry ∈ keywords.entries keyword, Text.isBlank entry = false

/-- What is written behind the word that opens a clause. -/
inductive WritesBody (b : Builder) (keywords : KeywordClauses) : TailClause → Fragment → Prop
  | predicates {keyword : ClauseKeyword} {body : Fragment} :
      WritesClause keyword b.config.autoQuoteValues (b.pending keyword)
        (raw (" " ++ keyword.text ++ " ") ++ body) →
      WritesBody b keywords (.predicates keyword) body
  | entries (keyword : Keyword) :
      WritesBody b keywords (.entries keyword) (raw (keywords.entriesText keyword))

/-- What is written for clauses in a given order. -/
inductive WritesTail (b : Builder) (keywords : KeywordClauses) : List TailClause → Fragment → Prop
  | nil : WritesTail b keywords [] .empty
  | absent {c : TailClause} {cs : List TailClause} {rest : Fragment} :
      ¬b.HasClause keywords c → WritesTail b keywords cs rest →
      WritesTail b keywords (c :: cs) rest
  | present {c : TailClause} {cs : List TailClause} {body rest : Fragment} :
      b.HasClause keywords c → b.WritesBody keywords c body → WritesTail b keywords cs rest →
      WritesTail b keywords (c :: cs) (raw (" " ++ c.word ++ " ") ++ body ++ rest)

/-! ### Statements -/

/-- What is written for a statement that has clauses. -/
inductive WritesStatement (b : Builder) : Call → Fragment → Prop
  | select {distinct : Bool} {tables : Tables} {columns : Columns} {keywords : KeywordClauses}
      {tail : Fragment} :
      b.WritesTail keywords TailClause.ofSelect tail →
      WritesStatement b (.select distinct tables columns keywords)
        (raw "SELECT " ++ raw (if distinct then "DISTINCT " else "") ++
          raw (if columns.isEmpty then "*" else columns.text) ++ raw " FROM " ++
          (compileTables tables).value ++ tail)
  | update {tables : Tables} {assignments : SetClause} {limit : Option Nat} {tail : Fragment} :
      b.WritesTail (.ofLimit limit) TailClause.ofChange tail →
      WritesStatement b (.update tables assignments limit)
        (raw "UPDATE " ++ (compileTables tables).value ++ raw " SET " ++
          assignments.compile b.config.autoQuoteValues ++ tail)
  | delete {table : String} {limit : Option Nat} {tail : Fragment} :
      b.WritesTail (.ofLimit limit) TailClause.ofChange tail →
      WritesStatement b (.delete table limit) (raw "DELETE FROM " ++ raw table ++ tail)

/-- What is wrong with the lists that wait for the clauses of a call. The list of the `WHERE` clause
is looked at first. -/
inductive Refuses (b : Builder) (c : Call) (fault : ArgumentFault) : Prop
  | rows : c.takes .rows = true → FirstFault b.pendingWhere fault → Refuses b c fault
  | groups : c.takes .groups = true → Sound b.pendingWhere → FirstFault b.pendingHaving fault →
      Refuses b c fault

variable {b : Builder} {keywords : KeywordClauses} {cs : List TailClause} {a tail : Fragment}

/-! ### One clause more -/

/-- A list that is compiled gives its clause, or none if it is empty. -/
theorem WritesTail.clause {keyword : ClauseKeyword} {clause rest : Fragment}
    (hclause : compileClause keyword b.config.autoQuoteValues (b.pending keyword) = .ok clause)
    (hrest : b.WritesTail keywords cs rest) :
    b.WritesTail keywords (.predicates keyword :: cs) (clause ++ rest) := by
  have hwrites := compileClause_eq_ok_iff.mp hclause
  by_cases hnil : b.pending keyword = []
  · rw [hnil] at hwrites
    cases hwrites
    rw [Fragment.empty_append]
    exact .absent (not_not.mpr hnil) hrest
  · obtain ⟨body, rfl⟩ := hwrites.exists_body hnil
    exact .present hnil (.predicates hwrites) hrest

theorem writesTail_predicates_iff {keyword : ClauseKeyword} :
    b.WritesTail keywords (.predicates keyword :: cs) tail ↔
      ∃ clause rest,
        compileClause keyword b.config.autoQuoteValues (b.pending keyword) = .ok clause ∧
          b.WritesTail keywords cs rest ∧ tail = clause ++ rest := by
  constructor
  · intro h
    cases h with
    | absent hnone hrest =>
      have hnil : b.pending keyword = [] := not_not.mp hnone
      refine ⟨.empty, tail, ?_, hrest, (Fragment.empty_append tail).symm⟩
      rw [hnil]
      rfl
    | present hsome hbody hrest =>
      cases hbody with
      | predicates hclause => exact ⟨_, _, compileClause_eq_ok_iff.mpr hclause, hrest, rfl⟩
  · rintro ⟨clause, rest, hclause, hrest, rfl⟩
    exact .clause hclause hrest

theorem clause_of_not_hasClause {keyword : Keyword}
    (h : ¬b.HasClause keywords (.entries keyword)) : keywords.clause keyword = "" := by
  have hnone : (keywords.entries keyword).filter (fun entry => !Text.isBlank entry) = [] := by
    rw [List.filter_eq_nil_iff]
    intro entry hentry hkept
    exact h ⟨entry, hentry, by simpa using hkept⟩
  rw [KeywordClauses.clause, KeywordClauses.clause?, trimmed_entries_eq, hnone]
  rfl

theorem clause_of_hasClause {keyword : Keyword} (h : b.HasClause keywords (.entries keyword)) :
    keywords.clause keyword = " " ++ keyword.text ++ " " ++ keywords.entriesText keyword := by
  obtain ⟨entry, hentry, hfilled⟩ := h
  have hkept : Text.trim entry ∈
      ((keywords.entries keyword).filter fun entry => !Text.isBlank entry).map Text.trim :=
    List.mem_map_of_mem (List.mem_filter.mpr ⟨hentry, by rw [hfilled]; rfl⟩)
  rw [KeywordClauses.clause, KeywordClauses.clause?, KeywordClauses.entriesText, trimmed_entries_eq]
  split
  · next hnil =>
    rw [hnil] at hkept
    cases hkept
  · rfl

/-- Entries give their clause, or none if all of them are blank. -/
theorem WritesTail.entries (keyword : Keyword) {rest : Fragment}
    (hrest : b.WritesTail keywords cs rest) :
    b.WritesTail keywords (.entries keyword :: cs) (raw (keywords.clause keyword) ++ rest) := by
  by_cases h : b.HasClause keywords (.entries keyword)
  · rw [clause_of_hasClause h, ← Fragment.raw_append_raw]
    exact .present h (.entries keyword) hrest
  · rw [clause_of_not_hasClause h, Fragment.raw_empty, Fragment.empty_append]
    exact .absent h hrest

theorem writesTail_entries_iff {keyword : Keyword} :
    b.WritesTail keywords (.entries keyword :: cs) tail ↔
      ∃ rest, b.WritesTail keywords cs rest ∧ tail = raw (keywords.clause keyword) ++ rest := by
  constructor
  · intro h
    cases h with
    | absent hnone hrest =>
      refine ⟨tail, hrest, ?_⟩
      rw [clause_of_not_hasClause hnone, Fragment.raw_empty, Fragment.empty_append]
    | present hsome hbody hrest =>
      cases hbody with
      | entries =>
        refine ⟨_, hrest, ?_⟩
        rw [clause_of_hasClause hsome, Fragment.raw_append_raw]
        rfl
  · rintro ⟨rest, hrest, rfl⟩
    exact .entries keyword hrest

/-! ### All clauses of a statement -/

theorem selectTail_eq_ok_iff :
    b.selectTail keywords = .ok tail ↔ b.WritesTail keywords TailClause.ofSelect tail := by
  constructor
  · intro h
    obtain ⟨rows, hrows, h⟩ := exists_of_bind_eq_ok h
    obtain ⟨groups, hgroups, h⟩ := exists_of_bind_eq_ok h
    cases h
    have hback : b.WritesTail keywords [.entries .orderBy, .entries .limit, .entries .offset] _ :=
      .entries .orderBy (.entries .limit (.entries .offset .nil))
    have hall : b.WritesTail keywords TailClause.ofSelect _ :=
      .clause hrows (.entries .groupBy (.clause hgroups hback))
    simpa only [Fragment.append_assoc, Fragment.append_empty] using hall
  · intro h
    obtain ⟨rows, _, hrows, h₁, rfl⟩ := writesTail_predicates_iff.mp h
    obtain ⟨_, h₂, rfl⟩ := writesTail_entries_iff.mp h₁
    obtain ⟨groups, _, hgroups, h₃, rfl⟩ := writesTail_predicates_iff.mp h₂
    obtain ⟨_, h₄, rfl⟩ := writesTail_entries_iff.mp h₃
    obtain ⟨_, h₅, rfl⟩ := writesTail_entries_iff.mp h₄
    obtain ⟨_, h₆, rfl⟩ := writesTail_entries_iff.mp h₅
    cases h₆
    simp only [pending] at hrows hgroups
    rw [selectTail, hrows, hgroups, Fragment.append_empty]
    simp only [Fragment.append_assoc]
    rfl

theorem changeTail_eq_ok_iff {limit : Option Nat} :
    b.changeTail limit = .ok tail ↔ b.WritesTail (.ofLimit limit) TailClause.ofChange tail := by
  constructor
  · intro h
    obtain ⟨rows, hrows, h⟩ := exists_of_bind_eq_ok h
    cases h
    have hlimit : b.WritesTail (.ofLimit limit) [.entries .limit] _ := .entries .limit .nil
    have hall := WritesTail.clause hrows hlimit
    rwa [Fragment.append_empty] at hall
  · intro h
    obtain ⟨rows, _, hrows, h₁, rfl⟩ := writesTail_predicates_iff.mp h
    obtain ⟨_, h₂, rfl⟩ := writesTail_entries_iff.mp h₁
    cases h₂
    simp only [pending] at hrows
    rw [changeTail, hrows, Fragment.append_empty]
    rfl

/-- The list for `HAVING` is read only if the one for `WHERE` is sound. -/
theorem selectTail_eq_error_iff {e : SqlError} :
    b.selectTail keywords = .error e ↔
      ∃ fault, e = .invalidArgument fault ∧
        (FirstFault b.pendingWhere fault ∨
          (Sound b.pendingWhere ∧ FirstFault b.pendingHaving fault)) := by
  rw [selectTail, bind_eq_error_iff, compileClause_eq_error_iff]
  constructor
  · rintro (⟨fault, rfl, hfault⟩ | ⟨rows, hrows, h⟩)
    · exact ⟨fault, rfl, .inl hfault⟩
    · rcases bind_eq_error_iff.mp h with h | ⟨groups, -, ⟨⟩⟩
      obtain ⟨fault, rfl, hfault⟩ := compileClause_eq_error_iff.mp h
      exact ⟨fault, rfl, .inr ⟨exists_compileClause_iff_sound.mp ⟨rows, hrows⟩, hfault⟩⟩
  · rintro ⟨fault, rfl, hfault | ⟨hsound, hfault⟩⟩
    · exact .inl ⟨fault, rfl, hfault⟩
    · obtain ⟨rows, hrows⟩ := exists_compileClause_iff_sound.mpr hsound
      refine .inr ⟨rows, hrows, bind_eq_error_iff.mpr (.inl ?_)⟩
      exact compileClause_eq_error_iff.mpr ⟨fault, rfl, hfault⟩

theorem changeTail_eq_error_iff {limit : Option Nat} {e : SqlError} :
    b.changeTail limit = .error e ↔
      ∃ fault, e = .invalidArgument fault ∧ FirstFault b.pendingWhere fault := by
  rw [changeTail, bind_eq_error_iff, compileClause_eq_error_iff]
  constructor
  · rintro (h | ⟨rows, -, ⟨⟩⟩)
    exact h
  · exact .inl

/-! ### Statements with clauses -/

/-- The clauses of a call, compiled. -/
def compileTail (b : Builder) : Call → Except SqlError Fragment
  | .select _ _ _ keywords => b.selectTail keywords
  | .update _ _ limit | .delete _ limit => b.changeTail limit
  | _ => .ok .empty

variable {c : Call}

/-- The statement is its front with the clauses behind it. -/
theorem writesStatement_iff (hc : c.takes .rows = true) :
    b.WritesStatement c a ↔
      ∃ tail, b.compileTail c = .ok tail ∧ a = (c.frame b.config).front ++ tail := by
  cases c with
  | select distinct tables columns keywords =>
    constructor
    · intro h
      cases h with
      | select htail => exact ⟨_, selectTail_eq_ok_iff.mpr htail, rfl⟩
    · rintro ⟨tail, htail, rfl⟩
      exact .select (selectTail_eq_ok_iff.mp htail)
  | update tables assignments limit =>
    constructor
    · intro h
      cases h with
      | update htail => exact ⟨_, changeTail_eq_ok_iff.mpr htail, rfl⟩
    · rintro ⟨tail, htail, rfl⟩
      exact .update (changeTail_eq_ok_iff.mp htail)
  | delete table limit =>
    constructor
    · intro h
      cases h with
      | delete htail => exact ⟨_, changeTail_eq_ok_iff.mpr htail, rfl⟩
    · rintro ⟨tail, htail, rfl⟩
      exact .delete (changeTail_eq_ok_iff.mp htail)
  | _ => cases hc

/-- If the clauses are compiled, the statement is written. -/
theorem written_of_compileTail (hc : c.takes .rows = true) (h : b.compileTail c = .ok tail) :
    (b.call c).result = .ok () ∧ ∃ type, c.type? = some type ∧
      b.Wrote type ((c.frame b.config).front ++ tail) (b.call c).builder := by
  cases c with
  | select distinct tables columns keywords =>
    have htail : b.selectTail keywords = .ok tail := h
    rw [call, select, htail]
    exact ⟨rfl, .select, rfl, rfl, rfl, rfl⟩
  | update tables assignments limit =>
    have htail : b.changeTail limit = .ok tail := h
    rw [call, update, htail]
    exact ⟨rfl, .update, rfl, rfl, rfl, rfl⟩
  | delete table limit =>
    have htail : b.changeTail limit = .ok tail := h
    rw [call, delete, htail]
    exact ⟨rfl, .delete, rfl, rfl, rfl, rfl⟩
  | _ => cases hc

/-- If they are not, the call fails for the reason for which they are not. -/
theorem result_of_compileTail {e : SqlError} (hc : c.takes .rows = true)
    (h : b.compileTail c = .error e) : (b.call c).result = .error e := by
  cases c with
  | select distinct tables columns keywords =>
    have htail : b.selectTail keywords = .error e := h
    rw [call, select, htail]
  | update tables assignments limit =>
    have htail : b.changeTail limit = .error e := h
    rw [call, update, htail]
  | delete table limit =>
    have htail : b.changeTail limit = .error e := h
    rw [call, delete, htail]
  | _ => cases hc

theorem compileTail_eq_error_iff {e : SqlError} (hc : c.takes .rows = true) :
    b.compileTail c = .error e ↔ ∃ fault, e = .invalidArgument fault ∧ b.Refuses c fault := by
  cases c with
  | select distinct tables columns keywords =>
    refine selectTail_eq_error_iff.trans (exists_congr fun fault => and_congr_right fun _ => ?_)
    constructor
    · rintro (hrows | ⟨hsound, hgroups⟩)
      · exact .rows rfl hrows
      · exact .groups rfl hsound hgroups
    · rintro (⟨-, hrows⟩ | ⟨-, hsound, hgroups⟩)
      · exact .inl hrows
      · exact .inr ⟨hsound, hgroups⟩
  | update tables assignments limit | delete table limit =>
    refine changeTail_eq_error_iff.trans (exists_congr fun fault => and_congr_right fun _ => ?_)
    constructor
    · exact fun hrows => .rows rfl hrows
    · rintro (⟨-, hrows⟩ | ⟨⟨⟩, -, -⟩)
      exact hrows
  | _ => cases hc

/-- What waits for `HAVING` makes no difference to a call without that clause. -/
theorem call_having (hc : c.takes .rows = true) (hgroups : c.takes .groups = false)
    (groups : List Predicate) :
    ((b.having groups).call c).result = (b.call c).result ∧
      ((b.having groups).call c).builder.sql = (b.call c).builder.sql := by
  cases c with
  | select distinct tables columns keywords => cases hgroups
  | update tables assignments limit =>
    have htail : (b.having groups).changeTail limit = b.changeTail limit := rfl
    rw [call, call, update, update, htail]
    cases b.changeTail limit <;> exact ⟨rfl, rfl⟩
  | delete table limit =>
    have htail : (b.having groups).changeTail limit = b.changeTail limit := rfl
    rw [call, call, delete, delete, htail]
    cases b.changeTail limit <;> exact ⟨rfl, rfl⟩
  | _ => cases hc

/-- **Every clause in its place.** A statement with clauses succeeds if the grammar has a text for
it, and then that text is written; it fails if a list that waits for one of its clauses is refused,
the one for `WHERE` first. A call without a `HAVING` clause is not touched by what waits for one. -/
theorem clauses_written_in_order (b : Builder) {c : Call} (hc : c.takes .rows = true) :
    ((b.call c).result = .ok () ↔ ∃ a, b.WritesStatement c a) ∧
      (∀ a, b.WritesStatement c a →
        ∃ type, c.type? = some type ∧ b.Wrote type a (b.call c).builder) ∧
      (∀ e, (b.call c).result = .error e ↔
        ∃ fault, e = .invalidArgument fault ∧ b.Refuses c fault) ∧
      (c.takes .groups = false → ∀ groups,
        ((b.having groups).call c).result = (b.call c).result ∧
          ((b.having groups).call c).builder.sql = (b.call c).builder.sql) := by
  refine ⟨?_, ?_, fun e => ?_, fun hgroups => call_having hc hgroups⟩
  · simp only [writesStatement_iff hc]
    constructor
    · intro hok
      cases htail : b.compileTail c with
      | ok tail => exact ⟨_, tail, rfl, rfl⟩
      | error e =>
        rw [result_of_compileTail hc htail] at hok
        cases hok
    · rintro ⟨_, tail, htail, -⟩
      exact (written_of_compileTail hc htail).1
  · intro a ha
    obtain ⟨tail, htail, rfl⟩ := (writesStatement_iff hc).mp ha
    exact (written_of_compileTail hc htail).2
  · rw [← compileTail_eq_error_iff hc]
    constructor
    · intro herror
      cases htail : b.compileTail c with
      | ok tail =>
        rw [(written_of_compileTail hc htail).1] at herror
        cases herror
      | error e' =>
        rw [result_of_compileTail hc htail] at herror
        cases herror
        rfl
    · exact result_of_compileTail hc

/-- Predicates wait for both clauses. -/
def waiting (rows groups : List Predicate) : Builder := ((ofConfig {}).filter rows).having groups

/-- A selection with one entry to group by and none to order by, as all of these are blank. -/
def groupedSelect : Call :=
  .select true [.plain "t"] ["a", "b"]
    { groupBy := ["", " g "], orderBy := [" ", "\t"], limit := ["3 "], offset := [] }

/-- Four clauses of the selection are written, and two of them of a deletion. If both lists are
faulty, the one for `WHERE` is refused. -/
theorem clauses_written_in_order_of_grouped_select :
    let b := waiting [.isNull "a"] [.between "n" (.scalar (.int 1)) .placeholder, .inList "k" []]
    let faulty := waiting [.ofValue "a" .missing] [.ofValue "n" .missing]
    let deletion := Call.delete "t" (some 5)
    groupedSelect.takes .rows = true ∧
      (∃ a, b.WritesStatement groupedSelect a ∧ b.Wrote .select a (b.call groupedSelect).builder) ∧
      (b.call groupedSelect).builder.text =
        "SELECT DISTINCT a,b FROM t WHERE a IS NULL GROUP BY g" ++
          " HAVING n BETWEEN 1 AND ? AND 1=0 LIMIT 3" ∧
      deletion.takes .rows = true ∧ deletion.takes .groups = false ∧
      (∃ a, b.WritesStatement deletion a ∧ b.Wrote .delete a (b.call deletion).builder) ∧
      (b.call deletion).builder.text = "DELETE FROM t WHERE a IS NULL LIMIT 5" ∧
      ((b.having []).call deletion).builder.sql = (b.call deletion).builder.sql ∧
      ∃ fault, faulty.Refuses groupedSelect fault ∧ fault.message = "= on 'a' needs a value" := by
  intro b faulty deletion
  have hselect : groupedSelect.takes .rows = true := rfl
  have hdelete : deletion.takes .rows = true := rfl
  have hgroups : deletion.takes .groups = false := rfl
  obtain ⟨hok, hwrote, -, -⟩ := clauses_written_in_order b hselect
  obtain ⟨hok', hwrote', -, hsame⟩ := clauses_written_in_order b hdelete
  obtain ⟨-, -, herror, -⟩ := clauses_written_in_order faulty hselect
  refine ⟨hselect, ?_, by decide, hdelete, hgroups, ?_, by decide, (hsame hgroups []).2, ?_⟩
  · obtain ⟨a, ha⟩ := hok.mp rfl
    obtain ⟨_, ⟨⟩, h⟩ := hwrote a ha
    exact ⟨a, ha, h⟩
  · obtain ⟨a, ha⟩ := hok'.mp rfl
    obtain ⟨_, ⟨⟩, h⟩ := hwrote' a ha
    exact ⟨a, ha, h⟩
  · obtain ⟨fault, hfault, hrefuses⟩ := (herror _).mp rfl
    cases hfault
    exact ⟨_, hrefuses, by decide⟩

end Builder

end BoundSql
