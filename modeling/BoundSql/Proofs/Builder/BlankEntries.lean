import BoundSql.Fragment.Lemmas
import BoundSql.Proofs.Builder.ClauseOrder
import Mathlib.Algebra.Order.BigOperators.Group.List
import Mathlib.Algebra.Order.Ring.Nat

/-!
# Blank entries of lists

A blank entry says nothing. In the lists of `GROUP BY`, `ORDER BY`, `LIMIT` and `OFFSET` it leaves
no trace. A list of columns counts as empty if all of its entries are blank; but if another entry is
there, the blank ones are written as well, each behind or before a comma.

    clause_filled             : a clause is written without its blank entries
    columnsText_filled_iff    : a list of columns only if all of its entries are blank, or none
    blank_entries_removed_iff : so their removal can change a statement
-/

namespace BoundSql

open Fragment (raw)

/-! ### Lists without blank entries -/

/-- The entries of a list that are not blank. -/
def filled (entries : List String) : List String := entries.filter fun entry => !Text.isBlank entry

def KeywordClauses.filled (keywords : KeywordClauses) : KeywordClauses where
  groupBy := BoundSql.filled keywords.groupBy
  orderBy := BoundSql.filled keywords.orderBy
  limit := BoundSql.filled keywords.limit
  offset := BoundSql.filled keywords.offset

namespace Call

/-- The call without the blank entries of its clauses. -/
def withFilledClauses : Call → Call
  | .select distinct tables columns keywords => .select distinct tables columns keywords.filled
  | c => c

/-- The columns that a call names. -/
def columns : Call → Columns
  | .select _ _ columns _ | .insert _ _ _ columns => columns
  | _ => []

/-- The call with other columns, if it names any. -/
def withColumns (columns : Columns) : Call → Call
  | .select distinct tables _ keywords => .select distinct tables columns keywords
  | .insert ignore table values _ => .insert ignore table values columns
  | c => c

/-- What a call writes for a list of columns. -/
def columnsText (columns : Columns) : Call → String
  | .select _ _ _ _ => if columns.isEmpty then "*" else columns.text
  | .insert _ _ _ _ => if columns.isEmpty then "" else "(" ++ columns.text ++ ")"
  | _ => ""

theorem withColumns_columns (c : Call) : c.withColumns c.columns = c := by
  cases c <;> rfl

theorem withColumns_withColumns (c : Call) (columns columns' : Columns) :
    (c.withColumns columns).withColumns columns' = c.withColumns columns' := by
  cases c <;> rfl

end Call

theorem filled_filled (entries : List String) : filled (filled entries) = filled entries := by
  rw [filled, filled, List.filter_filter]
  simp only [Bool.and_self]

/-! ### Clauses -/

/-- The text of a clause with entries: nothing at all, or trimmed entries of which none is empty. -/
inductive ClauseOfEntries (keyword : Keyword) : String → Prop
  | absent : ClauseOfEntries keyword ""
  | present {entries : List String} :
      entries ≠ [] → (∀ entry ∈ entries, entry ≠ "" ∧ Text.Trimmed entry.toList) →
      ClauseOfEntries keyword (" " ++ keyword.text ++ " " ++ String.intercalate ", " entries)

namespace KeywordClauses

theorem entries_filled (keywords : KeywordClauses) (keyword : Keyword) :
    keywords.filled.entries keyword = BoundSql.filled (keywords.entries keyword) := by
  cases keyword <;> rfl

/-- Blank entries leave no trace in a clause. -/
theorem clause_filled (keywords : KeywordClauses) (keyword : Keyword) :
    keywords.filled.clause keyword = keywords.clause keyword := by
  have hentries : ((BoundSql.filled (keywords.entries keyword)).map Text.trim).filter (· != "") =
      ((keywords.entries keyword).map Text.trim).filter (· != "") := by
    rw [trimmed_entries_eq, trimmed_entries_eq]
    exact congrArg (List.map Text.trim) (filled_filled _)
  rw [clause, clause, clause?, clause?, entries_filled, hentries]

theorem clauseOfEntries_clause (keywords : KeywordClauses) (keyword : Keyword) :
    ClauseOfEntries keyword (keywords.clause keyword) := by
  rw [clause, clause?]
  split
  · exact .absent
  · next hsome =>
    refine .present hsome fun entry hentry => ?_
    obtain ⟨hmem, hne⟩ := List.mem_filter.mp hentry
    obtain ⟨given, -, rfl⟩ := List.mem_map.mp hmem
    refine ⟨bne_iff_ne.mp hne, ?_⟩
    rw [Text.toList_trim]
    exact Text.trimmed_trimChars _

end KeywordClauses

/-! ### Columns -/

namespace Columns

theorem isEmpty_iff (cs : Columns) : cs.isEmpty = true ↔ filled cs = [] := by
  simp [Columns.isEmpty, filled, List.filter_eq_nil_iff]

theorem isEmpty_filled (cs : Columns) : Columns.isEmpty (filled cs) = cs.isEmpty := by
  rw [Bool.eq_iff_iff, isEmpty_iff, isEmpty_iff, filled_filled]

/-- Every entry takes its length and a comma, except that the last one has no comma. -/
theorem length_text_add_one {cs : Columns} (h : cs ≠ []) :
    cs.text.length + 1 = (cs.map fun column => column.length + 1).sum := by
  induction cs with
  | nil => exact absurd rfl h
  | cons c cs ih =>
    by_cases hcs : cs = []
    · subst hcs
      rw [text, String.intercalate_singleton]
      rfl
    · have hcomma : ",".length = 1 := rfl
      rw [text, String.intercalate_cons_of_ne_nil hcs, List.map_cons, List.sum_cons, ← ih hcs,
        String.length_append, String.length_append, hcomma, text]
      omega

/-- Among others, no blank entry can be taken out without a comma that goes with it. -/
theorem filled_eq_of_text_eq {cs : Columns} (h : filled cs ≠ [])
    (htext : Columns.text (filled cs) = cs.text) : filled cs = cs := by
  have hcs : cs ≠ [] := by
    rintro rfl
    exact h rfl
  have hlengths := length_text_add_one h
  rw [htext, length_text_add_one hcs] at hlengths
  have hsplit := List.sum_map_filter_add_sum_map_filter_not
    (fun column => (!Text.isBlank column) = true) (fun column => column.length + 1) cs
  simp only [Bool.decide_eq_true] at hsplit
  rw [filled] at hlengths
  -- the blank entries have nothing left to take, not even their commas
  have hzero := Nat.add_eq_left.mp (hsplit.trans hlengths)
  rw [filled, List.filter_eq_self]
  intro column hcolumn
  by_contra hblank
  have hmem : column ∈ cs.filter fun column => decide ¬(!Text.isBlank column) = true :=
    List.mem_filter.mpr ⟨hcolumn, decide_eq_true hblank⟩
  exact Nat.succ_ne_zero _ (List.sum_eq_zero_iff.mp hzero _ (List.mem_map_of_mem hmem))

/-- What is written for a list of columns is written without its blank entries only if all of them
are blank, or none. -/
theorem written_filled_iff {around : String → String} (haround : Function.Injective around)
    (whenEmpty : String) (cs : Columns) :
    ((if Columns.isEmpty (filled cs) then whenEmpty else around (Columns.text (filled cs))) =
        if cs.isEmpty then whenEmpty else around cs.text) ↔
      filled cs = [] ∨ filled cs = cs := by
  rw [isEmpty_filled]
  by_cases hempty : filled cs = []
  · rw [if_pos ((isEmpty_iff cs).mpr hempty), if_pos ((isEmpty_iff cs).mpr hempty)]
    exact ⟨fun _ => .inl hempty, fun _ => rfl⟩
  · have hsome : ¬cs.isEmpty = true := fun h => hempty ((isEmpty_iff cs).mp h)
    rw [if_neg hsome, if_neg hsome, haround.eq_iff]
    constructor
    · exact fun htext => .inr (filled_eq_of_text_eq hempty htext)
    · rintro (hnone | hall)
      · exact absurd hnone hempty
      · rw [hall]

end Columns

theorem columnsText_filled_iff (c : Call) :
    c.columnsText (filled c.columns) = c.columnsText c.columns ↔
      filled c.columns = [] ∨ filled c.columns = c.columns := by
  cases c with
  | select _ _ columns _ => exact Columns.written_filled_iff Function.injective_id "*" columns
  | insert _ _ _ columns =>
    have haround : Function.Injective fun text : String => "(" ++ text ++ ")" := by
      intro s t h
      exact (String.append_right_inj _).mp ((String.append_left_inj _).mp h)
    exact Columns.written_filled_iff haround "" columns
  | _ => exact ⟨fun _ => .inl rfl, fun _ => rfl⟩

/-! ### Calls -/

/-- A raw text is rendered as it is, behind any number of scalars. -/
theorem Fragment.renderParts_raw (config : Config) (bound : Nat) (text : String) :
    renderParts config bound (raw text).parts = ⟨text, []⟩ := by
  by_cases htext : text = ""
  · rw [htext, raw_empty]
    rfl
  · rw [raw_of_ne_empty htext]
    exact congrArg (Rendered.mk · []) String.append_empty

/-- What stands around a raw text does not depend on it. -/
theorem Fragment.sql_render_around (config : Config) (a b : Fragment) :
    ∃ front back : String, ∀ text : String,
      ((a ++ (raw text ++ b)).render config).sql = front ++ text ++ back := by
  refine ⟨(a.render config).sql, (renderParts config a.bindCount b.parts).sql, fun text => ?_⟩
  have hbound : bindCount ⟨(raw text).parts⟩ = 0 := congrArg List.length (binds_raw text)
  rw [render_append, parts_append, renderParts_glue, renderParts_raw, hbound, String.append_assoc]
  rfl

namespace Builder

/-- A statement is appended to what it continues, which may be nothing. -/
theorem text_commit (b : Builder) (type : StatementType) (statement : Fragment)
    (events : List Event) :
    (b.commit type statement events).builder.text =
      (((if b.isContinuing then b.sql else .empty) ++ statement).render b.config).sql := by
  show ((if b.isContinuing then b.sql ++ statement else statement).render b.config).sql = _
  cases b.isContinuing with
  | true => rfl
  | false => rw [if_neg Bool.false_ne_true, if_neg Bool.false_ne_true, Fragment.empty_append]

/-- Blank entries in the clauses of a call change nothing. -/
theorem call_withFilledClauses (b : Builder) (c : Call) :
    b.call c.withFilledClauses = b.call c := by
  cases c with
  | select distinct tables columns keywords =>
    have htail : b.selectTail keywords.filled = b.selectTail keywords := by
      simp only [selectTail, KeywordClauses.clause_filled]
    rw [Call.withFilledClauses, call, call, select, select, htail]
  | _ => rfl

/-- A call that fails names its columns in vain. -/
theorem call_withColumns_of_error {b : Builder} {c : Call} {e : SqlError}
    (h : (b.call c).result = .error e) (columns : Columns) :
    b.call (c.withColumns columns) = b.call c := by
  cases c with
  | select distinct tables given keywords =>
    cases htail : b.selectTail keywords with
    | error e => rw [Call.withColumns, call, call, select, select, htail]
    | ok tail =>
      rw [call, select, htail] at h
      cases h
  | insert ignore table values given => cases h
  | _ => rfl

/-- A call depends on its columns through their text. -/
theorem call_withColumns_congr {b : Builder} {c : Call} {columns columns' : Columns}
    (h : c.columnsText columns = c.columnsText columns') :
    b.call (c.withColumns columns) = b.call (c.withColumns columns') := by
  cases c with
  | select distinct tables given keywords =>
    have h : (if columns.isEmpty then "*" else columns.text) =
        if columns'.isEmpty then "*" else columns'.text := h
    rw [Call.withColumns, Call.withColumns, call, call, select, select, h]
  | insert ignore table values given =>
    have h : (if columns.isEmpty then "" else "(" ++ columns.text ++ ")") =
        if columns'.isEmpty then "" else "(" ++ columns'.text ++ ")" := h
    rw [Call.withColumns, Call.withColumns, call, call, insert, insert, h]
  | _ => rfl

/-- The columns of a call that succeeds can be found in its text. -/
theorem text_call_withColumns {b : Builder} {c : Call} (hok : (b.call c).result = .ok ()) :
    ∃ front back : String, ∀ columns,
      (b.call (c.withColumns columns)).builder.text = front ++ c.columnsText columns ++ back := by
  have hnone (hkeeps : ∀ columns, c.withColumns columns = c)
      (htext : ∀ columns, c.columnsText columns = "") : ∃ front back : String, ∀ columns,
        (b.call (c.withColumns columns)).builder.text = front ++ c.columnsText columns ++ back :=
    ⟨(b.call c).builder.text, "", fun columns => by
      rw [hkeeps, htext, String.append_empty, String.append_empty]⟩
  cases c with
  | select distinct tables given keywords =>
    obtain ⟨tail, htail⟩ := exists_tail_of_select hok
    obtain ⟨front, back, h⟩ := Fragment.sql_render_around b.config
      ((if b.isContinuing then b.sql else .empty) ++ raw "SELECT " ++
        raw (if distinct then "DISTINCT " else ""))
      (raw " FROM " ++ (compileTables tables).value ++ tail)
    refine ⟨front, back, fun columns => ?_⟩
    rw [← h, Call.withColumns, call, select, htail]
    simp only [text_commit, Fragment.append_assoc]
    rfl
  | insert ignore table values given =>
    obtain ⟨front, back, h⟩ := Fragment.sql_render_around b.config
      ((if b.isContinuing then b.sql else .empty) ++ raw "INSERT " ++
        raw (if ignore then "IGNORE " else "") ++ raw "INTO " ++ raw table)
      (insertSource b.config.autoQuoteValues values)
    refine ⟨front, back, fun columns => ?_⟩
    rw [← h, Call.withColumns, call, insert]
    simp only [text_commit, Fragment.append_assoc]
    rfl
  | autoQuoteValues _ | filter _ | having _ | update _ _ _ | delete _ _ | truncate _ | appendRaw _
  | append _ | createView _ _ | drop _ _ | union _ | reset =>
    exact hnone (fun _ => rfl) fun _ => rfl

/-- Blank columns make no difference to a call: it fails anyway, or all of its columns are blank, or
none is. -/
def ToleratesBlankColumns (b : Builder) (c : Call) : Prop :=
  (∃ e, (b.call c).result = .error e) ∨ filled c.columns = [] ∨ filled c.columns = c.columns

variable {b : Builder} {c : Call}

theorem call_withColumns_filled (h : b.ToleratesBlankColumns c) :
    b.call (c.withColumns (filled c.columns)) = b.call c := by
  rcases h with ⟨e, he⟩ | h
  · exact call_withColumns_of_error he _
  · have hcongr := call_withColumns_congr (b := b) ((columnsText_filled_iff c).mpr h)
    rwa [Call.withColumns_columns] at hcongr

/-- Where blank columns make a difference, it can be seen in the text. -/
theorem toleratesBlankColumns_of_text
    (h : (b.call (c.withColumns (filled c.columns))).builder.text = (b.call c).builder.text) :
    b.ToleratesBlankColumns c := by
  cases hresult : (b.call c).result with
  | error e => exact .inl ⟨e, hresult⟩
  | ok _ =>
    obtain ⟨front, back, htext⟩ := text_call_withColumns hresult
    have hgiven := htext c.columns
    rw [Call.withColumns_columns] at hgiven
    rw [htext, hgiven] at h
    have hcolumns := (String.append_right_inj _).mp ((String.append_left_inj _).mp h)
    exact .inr ((columnsText_filled_iff c).mp hcolumns)

/-- No column changes whether a call succeeds. -/
theorem result_call_withColumns (b : Builder) (c : Call) (columns : Columns) :
    (b.call (c.withColumns columns)).result = (b.call c).result := by
  cases hresult : (b.call c).result with
  | error e => rw [call_withColumns_of_error hresult, hresult]
  | ok _ =>
    cases hother : (b.call (c.withColumns columns)).result with
    | ok _ => rfl
    | error e =>
      have h := call_withColumns_of_error hother c.columns
      rw [Call.withColumns_withColumns, Call.withColumns_columns] at h
      rw [← h, hresult] at hother
      cases hother

end Builder

/-- **Blank entries of lists.** In the clauses of a call they leave no trace: the call does what it
does without them, and a clause is left out or lists trimmed entries, none of them empty. Among the
columns of a call they have no influence on its result either, but on its text, unless the call
fails anyway or all of the columns are blank. -/
theorem blank_entries_removed_iff (b : Builder) (c : Call) :
    b.call c.withFilledClauses = b.call c ∧
      (∀ (keywords : KeywordClauses) (keyword : Keyword),
        ClauseOfEntries keyword (keywords.clause keyword)) ∧
      let kept := b.call (c.withColumns (filled c.columns))
      kept.result = (b.call c).result ∧
        (kept = b.call c ↔ b.ToleratesBlankColumns c) ∧
        (kept.builder.text = (b.call c).builder.text ↔ b.ToleratesBlankColumns c) := by
  refine ⟨b.call_withFilledClauses c, KeywordClauses.clauseOfEntries_clause,
    b.result_call_withColumns c _, ⟨fun h => ?_, Builder.call_withColumns_filled⟩,
    Builder.toleratesBlankColumns_of_text, fun h => ?_⟩
  · exact Builder.toleratesBlankColumns_of_text (congrArg (fun o => o.builder.text) h)
  · rw [Builder.call_withColumns_filled h]

/-- A blank column between two others is written, and so is its comma. -/
theorem blank_column_between_columns :
    let b := Builder.ofConfig {}
    let c : Call := .select false [.plain "users"] ["id", "", "name"] {}
    (b.call c).builder.text = "SELECT id,,name FROM users" ∧
      (b.call (c.withColumns (filled c.columns))).builder.text = "SELECT id,name FROM users" ∧
      ¬∀ (b : Builder) (c : Call),
        (b.call (c.withColumns (filled c.columns))).builder.text = (b.call c).builder.text := by
  intro b c
  have hgiven : (b.call c).builder.text = "SELECT id,,name FROM users" := by decide
  have hkept : (b.call (c.withColumns (filled c.columns))).builder.text =
      "SELECT id,name FROM users" := by decide
  refine ⟨hgiven, hkept, fun hall => ?_⟩
  have heq := hall b c
  rw [hgiven, hkept] at heq
  exact absurd heq (by decide)

/-- The same columns in an `INSERT`, and blank entries in a clause. -/
example :
    let b := Builder.ofConfig {}
    (b.insert false "users" (.scalar (.int 1)) ["id", " ", "name"]).builder.text =
        "INSERT INTO users(id, ,name) VALUES (1)" ∧
      (b.select false [.plain "users"] [" "] { orderBy := ["", " name ", "\t"] }).builder.text =
        "SELECT * FROM users ORDER BY name" := by decide

end BoundSql
