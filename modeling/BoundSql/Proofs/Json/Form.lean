import BoundSql.Proofs.Json.Record
import Mathlib.Data.List.Forall2

/-!
# How descriptors are written in JSON

The forms of a descriptor, said without the functions that read them. A descriptor can have several:
a field with its default may be left out, a text that is missing may be `null`, the members of an
object may stand in any order, and one entry need not be put in an array. Every descriptor that JSON
can describe has a form.
-/

namespace BoundSql

open Json (Tree IsRecord)

/-- If every element has a partner, then so has the list. -/
theorem exists_forall₂ {α β : Type} {R : α → β → Prop} {as : List α}
    (h : ∀ a ∈ as, ∃ b, R a b) : ∃ bs, List.Forall₂ R as bs := by
  induction as with
  | nil => exact ⟨[], .nil⟩
  | cons a as ih =>
    obtain ⟨ha, has⟩ := List.forall_mem_cons.mp h
    obtain ⟨b, hb⟩ := ha
    obtain ⟨bs, hbs⟩ := ih has
    exact ⟨b :: bs, .cons hb hbs⟩

namespace Json

/-! ### Fields and texts -/

/-- A field is written as its value, or left out if it has the default. -/
inductive FieldForm {α : Type} (default : α) (Form : α → Tree → Prop) : α → Option Tree → Prop
  | leftOut : FieldForm default Form default none
  | written {a : α} {t : Tree} : Form a t → FieldForm default Form a (some t)

inductive BoolForm : Bool → Tree → Prop
  | bool (b : Bool) : BoolForm b (.bool b)

inductive TextForm : String → Tree → Prop
  | text (s : String) : TextForm s (.string (some s))

/-- A text that is missing is `null`. -/
inductive OptionalTextForm : Option String → Tree → Prop
  | null : OptionalTextForm none .null
  | text (s : String) : OptionalTextForm (some s) (.string (some s))

theorem exists_optionalTextForm (s : Option String) : ∃ t, OptionalTextForm s t := by
  cases s with
  | none => exact ⟨_, .null⟩
  | some s => exact ⟨_, .text s⟩

end Json

open Json (FieldForm BoolForm TextForm OptionalTextForm exists_optionalTextForm exists_isRecord)

/-! ### Values -/

namespace Value

/-- The value is made of integers, texts, placeholders and lists, and no text is taken for a
placeholder. -/
inductive IsDescribable : Value → Prop
  | int (n : Int64) : IsDescribable (.scalar (.int n))
  | text {s : String} : s ≠ "?" → IsDescribable (.scalar (.text s))
  | placeholder : IsDescribable .placeholder
  | list {vs : List Value} : (∀ v ∈ vs, IsDescribable v) → IsDescribable (.list vs)

/-- A number, a text or an array. -/
inductive JsonForm : Value → Tree → Prop
  | int (n : Int64) : JsonForm (.scalar (.int n)) (.number (.ofInt n.toInt))
  | text (s : String) : JsonForm (.scalar (.text s)) (.string (some s))
  | placeholder : JsonForm .placeholder (.string (some "?"))
  | list {vs : List Value} {ts : List Tree} :
      List.Forall₂ JsonForm vs ts → JsonForm (.list vs) (.array ts)

theorem IsDescribable.exists_jsonForm {v : Value} (h : v.IsDescribable) : ∃ t, v.JsonForm t := by
  induction h with
  | int n => exact ⟨_, .int n⟩
  | text _ => exact ⟨_, .text _⟩
  | placeholder => exact ⟨_, .placeholder⟩
  | list _ ih =>
    obtain ⟨ts, hts⟩ := exists_forall₂ ih
    exact ⟨_, .list hts⟩

end Value

/-! ### Predicates -/

/-- The operator was read from a text, and its own text is written. -/
inductive Operator.JsonForm (op : Operator) : Tree → Prop
  | text : JsonForm op (.string (some op.text))

namespace Predicate

/-- The operator is one that a text can name. -/
structure IsDescribable (p : Predicate) : Prop where
  value : p.value.IsDescribable
  operator : ∃ s, p.operator = .parse s

/-- An object. Only the expression must be written, under either of its names. -/
inductive JsonForm (p : Predicate) (t : Tree) : Prop
  | object {value operator connector : Option Tree} :
      FieldForm (.list []) Value.JsonForm p.value value →
      FieldForm .eq Operator.JsonForm p.operator operator →
      FieldForm none OptionalTextForm p.connector connector →
      IsRecord [["expression", "expr"], ["value"], ["operator"], ["connector"]]
        [some (.string (some p.expression)), value, operator, connector] t →
      JsonForm p t

theorem IsDescribable.exists_jsonForm {p : Predicate} (h : p.IsDescribable) :
    ∃ t, p.JsonForm t := by
  obtain ⟨value, hvalue⟩ := h.value.exists_jsonForm
  obtain ⟨connector, hconnector⟩ := exists_optionalTextForm p.connector
  obtain ⟨t, ht⟩ := exists_isRecord
    [["expression", "expr"], ["value"], ["operator"], ["connector"]]
    [some (.string (some p.expression)), some value, some (.string (some p.operator.text)),
      some connector] (by decide) rfl
  exact ⟨t, .object (.written hvalue) (.written .text) (.written hconnector) ht⟩

end Predicate

/-! ### Tables -/

namespace TableRef

/-- A table with or without a label, which is not empty. -/
inductive IsNamed : TableRef → Prop
  | plain (name : String) : IsNamed (.plain name)
  | aliased (name : String) {label : String} : label ≠ "" → IsNamed (.aliased name label)

/-- A named table, or a join of one that has a type or a condition. -/
inductive IsDescribable : TableRef → Prop
  | named {table : TableRef} : table.IsNamed → IsDescribable table
  | joined {base : TableRef} {joinType on : Option String} : base.IsNamed →
      ¬(joinType = none ∧ on = none) → IsDescribable (.joined base joinType on)

/-- The name, the label, the type and the condition of an entry. -/
inductive HasParts : TableRef → String → Option String → Option String → Option String → Prop
  | plain (name : String) : HasParts (.plain name) name none none none
  | aliased (name label : String) : HasParts (.aliased name label) name (some label) none none
  | joined {base : TableRef} {name : String} {label : Option String} (joinType on : Option String) :
      HasParts base name label none none →
      HasParts (.joined base joinType on) name label joinType on

/-- A text if there is only a name, or an object. -/
inductive JsonForm : TableRef → Tree → Prop
  | name (name : String) : JsonForm (.plain name) (.string (some name))
  | object {table : TableRef} {name : String} {label joinType on : Option String}
      {labelField joinField onField : Option Tree} {t : Tree} :
      table.HasParts name label joinType on →
      FieldForm none OptionalTextForm label labelField →
      FieldForm none OptionalTextForm joinType joinField →
      FieldForm none OptionalTextForm on onField →
      IsRecord [["name"], ["as"], ["join"], ["on"]]
        [some (.string (some name)), labelField, joinField, onField] t →
      JsonForm table t

theorem IsNamed.exists_hasParts {table : TableRef} (h : table.IsNamed) :
    ∃ name label, table.HasParts name label none none := by
  cases h with
  | plain name => exact ⟨_, _, .plain name⟩
  | aliased name _ => exact ⟨_, _, .aliased name _⟩

theorem IsDescribable.exists_jsonForm {table : TableRef} (h : table.IsDescribable) :
    ∃ t, table.JsonForm t := by
  obtain ⟨name, label, joinType, on, hparts⟩ :
      ∃ name label joinType on, table.HasParts name label joinType on := by
    cases h with
    | named hnamed =>
      obtain ⟨name, label, hparts⟩ := hnamed.exists_hasParts
      exact ⟨name, label, none, none, hparts⟩
    | joined hbase _ =>
      obtain ⟨name, label, hparts⟩ := hbase.exists_hasParts
      exact ⟨name, label, _, _, .joined _ _ hparts⟩
  obtain ⟨labelTree, hlabel⟩ := exists_optionalTextForm label
  obtain ⟨joinTree, hjoin⟩ := exists_optionalTextForm joinType
  obtain ⟨onTree, hon⟩ := exists_optionalTextForm on
  obtain ⟨t, ht⟩ := exists_isRecord [["name"], ["as"], ["join"], ["on"]]
    [some (.string (some name)), some labelTree, some joinTree, some onTree] (by decide) rfl
  exact ⟨t, .object hparts (.written hlabel) (.written hjoin) (.written hon) ht⟩

end TableRef

/-- An array of entries, or the only entry. -/
inductive Tables.JsonForm : Tables → Tree → Prop
  | many {tables : Tables} {ts : List Tree} :
      List.Forall₂ TableRef.JsonForm tables ts → JsonForm tables (.array ts)
  | one {table : TableRef} {t : Tree} : table.JsonForm t → JsonForm [table] t

theorem Tables.exists_jsonForm {tables : Tables} (h : ∀ table ∈ tables, table.IsDescribable) :
    ∃ t, tables.JsonForm t := by
  obtain ⟨ts, hts⟩ := exists_forall₂ fun table htable => (h table htable).exists_jsonForm
  exact ⟨_, .many hts⟩

/-! ### Keyword clauses -/

namespace KeywordClauses

/-- An array of texts; a text or a natural number of 64 bits if it is the only entry. -/
inductive EntriesForm : List String → Tree → Prop
  | texts {entries : List String} {ts : List Tree} :
      List.Forall₂ TextForm entries ts → EntriesForm entries (.array ts)
  | text (entry : String) : EntriesForm [entry] (.string (some entry))
  | number (n : UInt64) : EntriesForm [Nat.repr n.toNat] (.number (.ofInt n.toNat))

/-- An object; a clause without entries may be left out. -/
inductive JsonForm (k : KeywordClauses) (t : Tree) : Prop
  | object {groupBy orderBy limit offset : Option Tree} :
      FieldForm [] EntriesForm k.groupBy groupBy → FieldForm [] EntriesForm k.orderBy orderBy →
      FieldForm [] EntriesForm k.limit limit → FieldForm [] EntriesForm k.offset offset →
      IsRecord [["group_by"], ["order_by"], ["limit"], ["offset"]]
        [groupBy, orderBy, limit, offset] t →
      JsonForm k t

theorem exists_entriesForm (entries : List String) : ∃ t, EntriesForm entries t := by
  obtain ⟨ts, hts⟩ := @exists_forall₂ _ _ TextForm entries fun s _ => ⟨_, .text s⟩
  exact ⟨_, .texts hts⟩

theorem exists_jsonForm (k : KeywordClauses) : ∃ t, k.JsonForm t := by
  obtain ⟨groupBy, hgroupBy⟩ := exists_entriesForm k.groupBy
  obtain ⟨orderBy, horderBy⟩ := exists_entriesForm k.orderBy
  obtain ⟨limit, hlimit⟩ := exists_entriesForm k.limit
  obtain ⟨offset, hoffset⟩ := exists_entriesForm k.offset
  obtain ⟨t, ht⟩ := exists_isRecord [["group_by"], ["order_by"], ["limit"], ["offset"]]
    [some groupBy, some orderBy, some limit, some offset] (by decide) rfl
  exact ⟨t, .object (.written hgroupBy) (.written horderBy) (.written hlimit) (.written hoffset) ht⟩

end KeywordClauses

/-! ### Options -/

inductive RenderMode.JsonForm : RenderMode → Tree → Prop
  | literal : JsonForm .literal (.string (some "literal"))
  | parameterized : JsonForm .parameterized (.string (some "parameterized"))

inductive PlaceholderStyle.JsonForm : PlaceholderStyle → Tree → Prop
  | question : JsonForm .question (.string (some "question"))
  | numbered : JsonForm .numbered (.string (some "numbered"))

theorem RenderMode.exists_jsonForm (mode : RenderMode) : ∃ t, mode.JsonForm t := by
  cases mode
  · exact ⟨_, .literal⟩
  · exact ⟨_, .parameterized⟩

theorem PlaceholderStyle.exists_jsonForm (style : PlaceholderStyle) : ∃ t, style.JsonForm t := by
  cases style
  · exact ⟨_, .question⟩
  · exact ⟨_, .numbered⟩

namespace Config

/-- An object; an option with its default may be left out. -/
inductive JsonForm (c : Config) (t : Tree) : Prop
  | object {quote render placeholder escape : Option Tree} :
      FieldForm true BoolForm c.autoQuoteValues quote →
      FieldForm .literal RenderMode.JsonForm c.render render →
      FieldForm .question PlaceholderStyle.JsonForm c.placeholder placeholder →
      FieldForm false BoolForm c.escapeLiterals escape →
      IsRecord [["auto_quote_values"], ["render"], ["placeholder"], ["escape_literals"]]
        [quote, render, placeholder, escape] t →
      JsonForm c t

theorem exists_jsonForm (c : Config) : ∃ t, c.JsonForm t := by
  obtain ⟨render, hrender⟩ := c.render.exists_jsonForm
  obtain ⟨placeholder, hplaceholder⟩ := c.placeholder.exists_jsonForm
  obtain ⟨t, ht⟩ := exists_isRecord
    [["auto_quote_values"], ["render"], ["placeholder"], ["escape_literals"]]
    [some (.bool c.autoQuoteValues), some render, some placeholder, some (.bool c.escapeLiterals)]
    (by decide) rfl
  exact ⟨t, .object (.written (.bool _)) (.written hrender) (.written hplaceholder)
    (.written (.bool _)) ht⟩

end Config

end BoundSql
