import BoundSql.Proofs.Json.Form
import BoundSql.Proofs.Number.Digits
import BoundSql.Proofs.Predicate.Operator

/-!
# Descriptors are read back

Every form of a descriptor is read as that descriptor, as long as it is not nested more deeply than
what is read (`descriptors_read_back`).
-/

namespace BoundSql

open Json (Tree NumberToken FieldForm BoolForm TextForm OptionalTextForm depths depth_le_depths)

/-! ### Integers -/

namespace Json.NumberToken

/-- An integer between the least of 64 bits and the greatest natural number of 64 bits is written
without point and exponent. -/
theorem value?_ofInt {n : Int} (hlow : -2 ^ 63 ≤ n) (hhigh : n < 2 ^ 64) :
    (ofInt n).value? = some (.integer n) := by
  have hinteger : (ofInt n).integer? = some n := by
    simp only [integer?, ofInt, Number.digitsValue_toDigits, List.isEmpty_nil, Option.isNone_none,
      Bool.and_self, if_true, decide_eq_true_eq]
    have hpow63 : Number.pow2 63 = 9223372036854775808 := rfl
    have hpow64 : Number.pow2 64 = 18446744073709551616 := rfl
    rw [hpow63, hpow64]
    split
    · rw [if_pos (by simp; omega)]
      congr 1
      omega
    · rw [if_pos (by omega)]
      congr 1
      omega
  rw [value?, hinteger]

end Json.NumberToken

/-! ### Lists and fields -/

/-- A list is read if its elements are. -/
theorem mapM_eq_some_of_forall₂ {α β : Type} {R : α → β → Prop} {read : β → Option α}
    {as : List α} {bs : List β} (h : List.Forall₂ R as bs)
    (hread : ∀ a ∈ as, ∀ b ∈ bs, R a b → read b = some a) : bs.mapM read = some as := by
  induction h with
  | nil => rfl
  | @cons a b as bs hab _ ih =>
    have hfirst := hread a List.mem_cons_self b List.mem_cons_self hab
    have hrest := ih fun a ha b hb =>
      hread a (List.mem_cons_of_mem _ ha) b (List.mem_cons_of_mem _ hb)
    rw [List.mapM_cons, hfirst, hrest]
    rfl

namespace Json

theorem FieldForm.field?_eq {α : Type} {default a : α} {Form : α → Tree → Prop}
    {read : Tree → Option α} {field : Option Tree} (h : FieldForm default Form a field)
    (hread : ∀ t, field = some t → Form a t → read t = some a) :
    field? default read field = some a := by
  cases h with
  | leftOut => rfl
  | written hform => exact hread _ rfl hform

theorem BoolForm.bool?_eq {b : Bool} {t : Tree} (h : BoolForm b t) : bool? t = some b := by
  cases h
  rfl

theorem TextForm.text?_eq {s : String} {t : Tree} (h : TextForm s t) : text? t = some s := by
  cases h
  rfl

theorem FieldForm.isReadable {s : Option String} {t : Tree} {levels : Nat}
    (h : FieldForm none OptionalTextForm s (some t)) : t.isReadable levels = true := by
  rcases h with _ | (_ | _) <;> rfl

theorem OptionalTextForm.optionalText?_eq {s : Option String} {t : Tree}
    (h : OptionalTextForm s t) : optionalText? t = some s := by
  cases h <;> rfl

end Json

/-! ### Values -/

namespace Value

theorem listOfJson?_eq_mapM (levels : Nat) (ts : List Tree) :
    listOfJson? levels ts = ts.mapM (ofJson? levels) := by
  induction ts with
  | nil => rfl
  | cons t ts ih =>
    rw [listOfJson?, List.mapM_cons, ih]
    cases ofJson? levels t <;> cases ts.mapM (ofJson? levels) <;> rfl

theorem ofJson?_int (levels : Nat) (n : Int64) :
    ofJson? levels (.number (.ofInt n.toInt)) = some (.scalar (.int n)) := by
  have hlow := n.le_toInt
  have hhigh := n.toInt_lt
  have hvalue := NumberToken.value?_ofInt hlow (by omega)
  have hsmall : n.toInt < Number.pow2 63 := hhigh
  simp [ofJson?, Scalar.ofJson?, hvalue, hsmall]

theorem JsonForm.ofJson?_eq {v : Value} (hv : v.IsDescribable) {t : Tree} {levels : Nat}
    (h : v.JsonForm t) (hdepth : t.depth ≤ levels) : ofJson? levels t = some v := by
  induction hv generalizing t levels with
  | int n =>
    cases h
    exact ofJson?_int levels n
  | text hs =>
    cases h
    simp [ofJson?, Scalar.ofJson?, ofText, hs]
  | placeholder =>
    cases h
    simp [ofJson?, Scalar.ofJson?, ofText]
  | @list vs _ ih =>
    cases h with
    | @list _ ts hforms =>
      rw [Tree.depth] at hdepth
      have hitems : listOfJson? (levels - 1) ts = some vs := by
        rw [listOfJson?_eq_mapM]
        refine mapM_eq_some_of_forall₂ hforms fun v hv t ht hform => ih v hv hform ?_
        have hle := depth_le_depths ht
        omega
      rw [ofJson?, if_pos (by omega), hitems]
      rfl

end Value

/-! ### Predicates -/

theorem Operator.JsonForm.ofJson?_eq {op : Operator} {t : Tree} (h : op.JsonForm t)
    (hop : ∃ s, op = .parse s) : Operator.ofJson? t = some op := by
  obtain ⟨s, hop⟩ := hop
  cases h
  rw [Operator.ofJson?, Json.text?, Option.map_some, hop, Operator.parse_text_parse]

theorem Predicate.JsonForm.ofJson?_eq {p : Predicate} (hp : p.IsDescribable) {t : Tree}
    {levels : Nat} (h : p.JsonForm t) (hdepth : t.depth ≤ levels) :
    Predicate.ofJson? levels t = some p := by
  obtain @⟨value, operator, connector, hvalue, hoperator, hconnector, hrecord⟩ := h
  have hvalue : Json.field? .missing (Value.ofJson? (levels - 1)) value = some p.value :=
    hvalue.field?_eq fun v hv hform => by
      have hlt : v.depth < t.depth := hrecord.depth_lt (by simp [hv])
      exact hform.ofJson?_eq hp.value (by omega)
  have hoperator := hoperator.field?_eq fun _ _ hform => hform.ofJson?_eq hp.operator
  have hconnector := hconnector.field?_eq fun _ _ hform => hform.optionalText?_eq
  have hfields : Json.fields? Predicate.fieldNames t = _ := hrecord.fields?_eq (by decide)
  rw [Predicate.ofJson?, hfields]
  simp only [Json.text?, hvalue, hoperator, hconnector, Option.bind_eq_bind, Option.bind_some]
  rfl

/-! ### Tables -/

namespace TableRef

theorem HasParts.ofParts_eq_of_isNamed {table : TableRef} (htable : table.IsNamed) {name : String}
    {label joinType on : Option String} (h : table.HasParts name label joinType on) :
    ofParts name label joinType on = table := by
  cases htable with
  | plain name =>
    cases h
    rfl
  | aliased name hlabel =>
    cases h
    simp [ofParts]

/-- An entry is put together again from its parts. -/
theorem HasParts.ofParts_eq {table : TableRef} (htable : table.IsDescribable) {name : String}
    {label joinType on : Option String} (h : table.HasParts name label joinType on) :
    ofParts name label joinType on = table := by
  cases htable with
  | named hnamed => exact h.ofParts_eq_of_isNamed hnamed
  | joined hbase hjoin =>
    cases h with
    | joined joinType on hparts =>
      rw [← hparts.ofParts_eq_of_isNamed hbase]
      exact if_neg (by simpa using hjoin)

theorem JsonForm.ofJson?_eq {table : TableRef} (htable : table.IsDescribable) {t : Tree}
    {levels : Nat} (h : table.JsonForm t) (hdepth : t.depth ≤ levels) :
    TableRef.ofJson? levels t = some table := by
  cases h with
  | name name => rfl
  | object hparts hlabel hjoin hon hrecord =>
    have hlevels : 0 < levels := by
      have hlt := hrecord.depth_lt List.mem_cons_self
      omega
    have hreadable := hrecord.isReadable hlevels fun v hv => by
      rcases List.mem_cons.mp hv with hv | hv
      · cases hv
        rfl
      · simp only [List.mem_cons, List.not_mem_nil, or_false] at hv
        rcases hv with rfl | rfl | rfl
        · exact hlabel.isReadable
        · exact hjoin.isReadable
        · exact hon.isReadable
    have hlabel := hlabel.field?_eq fun _ _ hform => hform.optionalText?_eq
    have hjoin := hjoin.field?_eq fun _ _ hform => hform.optionalText?_eq
    have hon := hon.field?_eq fun _ _ hform => hform.optionalText?_eq
    have hfields := hrecord.fields?_eq (by decide)
    obtain ⟨members, rfl⟩ := hrecord.exists_object
    rw [TableRef.ofJson?, if_pos hreadable, hfields]
    simp only [Json.text?, hlabel, hjoin, hon, Option.bind_eq_bind, Option.bind_some]
    exact congrArg some (hparts.ofParts_eq htable)

end TableRef

theorem Tables.JsonForm.ofJson?_eq {tables : Tables}
    (htables : ∀ table ∈ tables, table.IsDescribable) {t : Tree} {levels : Nat}
    (h : tables.JsonForm t) (hdepth : t.depth ≤ levels) :
    Tables.ofJson? levels t = some tables := by
  cases h with
  | many hforms =>
    rw [Tree.depth] at hdepth
    exact mapM_eq_some_of_forall₂ hforms fun table htable t ht hform =>
      hform.ofJson?_eq (htables table htable) (by have hle := depth_le_depths ht; omega)
  | one hform =>
    have hread := hform.ofJson?_eq (htables _ List.mem_cons_self) hdepth
    have hentry : ∀ items, t ≠ .array items := by
      rintro items rfl
      cases hform with
      | object _ _ _ _ hrecord =>
        obtain ⟨members, ⟨⟩⟩ := hrecord.exists_object
    rw [Tables.ofJson?, hread]
    · rfl
    · exact hentry

/-! ### Keyword clauses -/

namespace KeywordClauses

theorem EntriesForm.entries?_eq {entries : List String} {t : Tree} (h : EntriesForm entries t) :
    entries? t = some entries := by
  cases h with
  | texts hforms => 
    exact mapM_eq_some_of_forall₂ hforms fun _ _ _ _ hform => hform.text?_eq
  | text entry => rfl
  | number n =>
    have hlt := n.toNat_lt
    have hvalue := NumberToken.value?_ofInt (n := n.toNat) (by omega) (by omega)
    rw [entries?, hvalue]
    simp [Number.integerText, Number.naturalText]

theorem JsonForm.ofJson?_eq {k : KeywordClauses} {t : Tree} (h : k.JsonForm t) :
    KeywordClauses.ofJson? t = some k := by
  obtain ⟨hgroupBy, horderBy, hlimit, hoffset, hrecord⟩ := h
  have hgroupBy := hgroupBy.field?_eq fun _ _ hform => hform.entries?_eq
  have horderBy := horderBy.field?_eq fun _ _ hform => hform.entries?_eq
  have hlimit := hlimit.field?_eq fun _ _ hform => hform.entries?_eq
  have hoffset := hoffset.field?_eq fun _ _ hform => hform.entries?_eq
  rw [KeywordClauses.ofJson?, hrecord.fields?_eq (by decide)]
  simp only [hgroupBy, horderBy, hlimit, hoffset, Option.bind_eq_bind, Option.bind_some]
  rfl

end KeywordClauses

/-! ### Options -/

theorem RenderMode.JsonForm.ofJson?_eq {mode : RenderMode} {t : Tree} (h : mode.JsonForm t) :
    RenderMode.ofJson? t = some mode := by
  cases h <;> rfl

theorem PlaceholderStyle.JsonForm.ofJson?_eq {style : PlaceholderStyle} {t : Tree}
    (h : style.JsonForm t) : PlaceholderStyle.ofJson? t = some style := by
  cases h <;> rfl

theorem Config.JsonForm.ofJson?_eq {c : Config} {t : Tree} (h : c.JsonForm t) :
    Config.ofJson? t = some c := by
  obtain ⟨hquote, hrender, hplaceholder, hescape, hrecord⟩ := h
  have hquote := hquote.field?_eq fun _ _ hform => hform.bool?_eq
  have hrender := hrender.field?_eq fun _ _ hform => hform.ofJson?_eq
  have hplaceholder := hplaceholder.field?_eq fun _ _ hform => hform.ofJson?_eq
  have hescape := hescape.field?_eq fun _ _ hform => hform.bool?_eq
  rw [Config.ofJson?, hrecord.fields?_eq (by decide)]
  simp only [hquote, hrender, hplaceholder, hescape, Option.bind_eq_bind, Option.bind_some]
  rfl

/-! ### Descriptors -/

/-- There is a form, and every form that is nested in no more levels than may be read is read as the
descriptor. -/
def ReadBack {α : Type} (Form : α → Tree → Prop) (read : Nat → Tree → Option α) (a : α) : Prop :=
  (∃ t, Form a t) ∧ ∀ t levels, Form a t → t.depth ≤ levels → read levels t = some a

/-- Every descriptor that JSON can describe is read back from each of its forms. -/
theorem descriptors_read_back :
    (∀ v : Value, v.IsDescribable → ReadBack Value.JsonForm Value.ofJson? v) ∧
      (∀ p : Predicate, p.IsDescribable → ReadBack Predicate.JsonForm Predicate.ofJson? p) ∧
      (∀ table : TableRef, table.IsDescribable →
        ReadBack TableRef.JsonForm TableRef.ofJson? table) ∧
      (∀ tables : Tables, (∀ table ∈ tables, table.IsDescribable) →
        ReadBack Tables.JsonForm Tables.ofJson? tables) ∧
      (∀ k : KeywordClauses,
        ReadBack KeywordClauses.JsonForm (fun _ => KeywordClauses.ofJson?) k) ∧
      ∀ c : Config, ReadBack Config.JsonForm (fun _ => Config.ofJson?) c := by
  refine ⟨?value, ?predicate, ?table, ?tables, ?keywords, ?config⟩
  case value => exact fun v hv => ⟨hv.exists_jsonForm, fun _ _ h => h.ofJson?_eq hv⟩
  case predicate => exact fun p hp => ⟨hp.exists_jsonForm, fun _ _ h => h.ofJson?_eq hp⟩
  case table => exact fun _ hn => ⟨hn.exists_jsonForm, fun _ _ h => h.ofJson?_eq hn⟩
  case tables => exact fun _ hn => ⟨Tables.exists_jsonForm hn, fun _ _ h => h.ofJson?_eq hn⟩
  case keywords => exact fun k => ⟨k.exists_jsonForm, fun _ _ h _ => h.ofJson?_eq⟩
  case config => exact fun c => ⟨c.exists_jsonForm, fun _ _ h _ => h.ofJson?_eq⟩

/-- A predicate whose members stand in reverse order, with a list in a list as its value, and a join
that is the only entry of a table list. -/
theorem descriptors_read_back_of_nested_value_and_only_join :
    Predicate.ofJson? 3 (.object [(some "connector", .null),
        (some "operator", .string (some "ILIKE ANY")),
        (some "value", .array [.array [.number (.ofInt (-3)), .string (some "a")],
          .string (some "?")]),
        (some "expr", .string (some "name"))]) =
      some ⟨"name", .list [.list [.scalar (.int (-3)), .scalar (.text "a")], .placeholder],
        .other "ILIKE ANY", none⟩ ∧
      Tables.ofJson? 1 (.object [(some "name", .string (some "roles")),
        (some "as", .string (some "r")), (some "on", .string (some "r.id = u.role"))]) =
      some [.joined (.aliased "roles" "r") none (some "r.id = u.role")] := by
  constructor
  · have hinner : Value.IsDescribable (.list [.scalar (.int (-3)), .scalar (.text "a")]) := by
      refine .list (List.forall_mem_cons.mpr ⟨.int _, ?_⟩)
      exact List.forall_mem_singleton.mpr (.text (by decide))
    have hvalue : Value.IsDescribable
        (.list [.list [.scalar (.int (-3)), .scalar (.text "a")], .placeholder]) := by
      refine .list (List.forall_mem_cons.mpr ⟨hinner, ?_⟩)
      exact List.forall_mem_singleton.mpr .placeholder
    have hform : Value.JsonForm
        (.list [.list [.scalar (.int (-3)), .scalar (.text "a")], .placeholder])
        (.array [.array [.number (.ofInt (-3)), .string (some "a")], .string (some "?")]) :=
      .list (.cons (.list (.cons (.int (-3)) (.cons (.text "a") .nil))) (.cons .placeholder .nil))
    refine (descriptors_read_back.2.1 _ ⟨hvalue, " ilike any ", by decide +kernel⟩).2 _ _ ?_
      (by decide)
    refine .object (.written hform) (.written .text) (.written .null)
      ⟨_, _, ?_, (List.reverse_perm _).symm, rfl⟩
    exact .written (by decide) (.written (by decide) (.written (by decide)
      (.written (by decide) .nil)))
  · refine (descriptors_read_back.2.2.2.1 _ ?_).2 _ _ (.one ?_) (by decide)
    · refine List.forall_mem_singleton.mpr (.joined (.aliased "roles" (by decide)) ?_)
      exact fun h => nomatch h.2
    · refine .object (.joined none _ (.aliased "roles" "r")) (.written (.text "r")) .leftOut
        (.written (.text _)) ⟨_, _, ?_, .refl _, rfl⟩
      exact .written (by decide) (.written (by decide) (.leftOut (.written (by decide) .nil)))

end BoundSql
