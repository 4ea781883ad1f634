import BoundSql.Proofs.Builder.Closure
import BoundSql.Proofs.Fragment.Canonical

/-!
# Every fragment is canonical

A fragment is *obtained* if it is put together piece by piece, compiled from descriptors that embed
obtained fragments, or accumulated by a builder. `Written a ps` says in addition which parts were
written one after the other to put it together, before any of them were merged. Every fragment is
the canonical form of what was written, so it does not matter in which steps that happened
(`obtained_fragments_are_canonical`).
-/

namespace BoundSql

open Fragment (raw)

mutual

/-- The fragment is put together by writing the parts one after the other. A fragment that was
compiled or accumulated counts with the parts it has. -/
inductive Fragment.Written : Fragment → List Part → Prop
  | empty : Fragment.Written .empty []
  | new (text : String) : Fragment.Written (raw text) [.raw text]
  | push {a ps} (text : String) : Fragment.Written a ps →
      Fragment.Written (a ++ raw text) (ps ++ [.raw text])
  | pushBind {a ps} (v : Scalar) : Fragment.Written a ps →
      Fragment.Written (a ++ .bind v) (ps ++ [.bind v])
  | pushPlaceholder {a ps} : Fragment.Written a ps →
      Fragment.Written (a ++ .placeholder) (ps ++ [.placeholder])
  | append {a b ps qs} : Fragment.Written a ps → Fragment.Written b qs →
      Fragment.Written (a ++ b) (ps ++ qs)
  | appendParenthesized {a b ps qs} : Fragment.Written a ps → Fragment.Written b qs →
      Fragment.Written (a ++ b.parenthesized) (ps ++ ([.raw "("] ++ qs ++ [.raw ")"]))
  | join (separator : String) {as : List (Fragment × List Part)} :
      (∀ a ∈ as, Fragment.Written a.1 a.2) →
      Fragment.Written (.join separator (as.map Prod.fst))
        ([.raw separator].intercalate (as.map Prod.snd))
  | clear {a ps} : Fragment.Written a ps → Fragment.Written .empty []
  | obtained {a} : Fragment.Obtained a → Fragment.Written a a.parts

/-- The fragment is put together, compiled or accumulated. -/
inductive Fragment.Obtained : Fragment → Prop
  | written {a ps} : Fragment.Written a ps → Fragment.Obtained a
  | value (quote : Bool) {v : Value} : (∀ f ∈ v.statements, Fragment.Obtained f) →
      Fragment.Obtained (v.joined quote)
  | item (quote : Bool) {v : Value} {a : Fragment} : (∀ f ∈ v.statements, Fragment.Obtained f) →
      a ∈ v.quotedItems quote → Fragment.Obtained a
  | tables {ts : Tables} : (∀ t ∈ ts, ∀ f ∈ t.statements, Fragment.Obtained f) →
      Fragment.Obtained (compileTables ts).value
  | clause (keyword : ClauseKeyword) (quote : Bool) {ps : List Predicate} {a : Fragment} :
      (∀ p ∈ ps, ∀ f ∈ p.statements, Fragment.Obtained f) →
      compileClause keyword quote ps = .ok a → Fragment.Obtained a
  | statement {b : Builder} : Builder.Obtained b → Fragment.Obtained b.sql

/-- The builder comes out of calls that embed obtained fragments, and of hand-overs. -/
inductive Builder.Obtained : Builder → Prop
  | new (config : Config) : Builder.Obtained (.ofConfig config)
  | call {b : Builder} (c : Call) : Builder.Obtained b →
      (∀ f ∈ c.statements, Fragment.Obtained f) → Builder.Obtained (b.call c).builder
  | handedOver {b : Builder} (style : PlaceholderStyle) : Builder.Obtained b →
      Builder.Obtained (b.handedOver style)

end

namespace Fragment

def IsCanonical (a : Fragment) : Prop := Canonical a.parts

theorem parts_raw (s : String) : (raw s).parts = merged [.raw s] := by
  by_cases hs : s = "" <;> simp [raw, empty, Part.prepend, hs]

/-- What is glued together is the canonical form of all that was written. -/
theorem parts_append_merged {a b : Fragment} {ps qs : List Part} (ha : a.parts = merged ps)
    (hb : b.parts = merged qs) : (a ++ b).parts = merged (ps ++ qs) := by
  rw [parts_append, ha, hb, glue_merged]

theorem parts_parenthesized_merged {a : Fragment} {ps : List Part} (h : a.parts = merged ps) :
    a.parenthesized.parts = merged ([.raw "("] ++ ps ++ [.raw ")"]) :=
  parts_append_merged (parts_append_merged (parts_raw "(") h) (parts_raw ")")

theorem parts_join_merged (separator : String) :
    ∀ {as : List (Fragment × List Part)}, (∀ a ∈ as, a.1.parts = merged a.2) →
      (join separator (as.map Prod.fst)).parts =
        merged ([.raw separator].intercalate (as.map Prod.snd))
  | [], _ => rfl
  | [a], h => by simpa [join] using h a List.mem_cons_self
  | a :: b :: as, h => by
    have hrest : (join separator ((b :: as).map Prod.fst)).parts =
        merged ([.raw separator].intercalate ((b :: as).map Prod.snd)) :=
      parts_join_merged separator fun c hc => h c (List.mem_cons_of_mem a hc)
    have hfront : (a.1 ++ raw separator).parts = merged (a.2 ++ [.raw separator]) :=
      parts_append_merged (h a List.mem_cons_self) (parts_raw separator)
    simpa [join] using parts_append_merged hfront hrest

theorem closed_isCanonical : Closed IsCanonical where
  raw s := by
    rw [IsCanonical, parts_raw]
    exact canonical_merged [.raw s]
  bind v := merged_eq_self_iff.mp rfl
  placeholder := merged_eq_self_iff.mp rfl
  append ha hb := ha.glue hb

end Fragment

mutual

theorem Fragment.Written.parts_eq {a : Fragment} {ps : List Part} :
    Fragment.Written a ps → a.parts = merged ps
  | .empty => rfl
  | .new text => Fragment.parts_raw text
  | .push text h => Fragment.parts_append_merged h.parts_eq (Fragment.parts_raw text)
  | .pushBind v h => Fragment.parts_append_merged h.parts_eq rfl
  | .pushPlaceholder h => Fragment.parts_append_merged h.parts_eq rfl
  | .append ha hb => Fragment.parts_append_merged ha.parts_eq hb.parts_eq
  | .appendParenthesized ha hb =>
    Fragment.parts_append_merged ha.parts_eq (Fragment.parts_parenthesized_merged hb.parts_eq)
  | .join separator h => Fragment.parts_join_merged separator fun a ha => (h a ha).parts_eq
  | .clear _ => rfl
  | .obtained h => (merged_eq_self_iff.mpr h.isCanonical).symm

theorem Fragment.Obtained.isCanonical {a : Fragment} : Fragment.Obtained a → a.IsCanonical
  | .written h => by
    rw [Fragment.IsCanonical, h.parts_eq]
    exact canonical_merged _
  | .value quote h =>
    Fragment.closed_isCanonical.joined quote _ fun f hf => (h f hf).isCanonical
  | .item quote h ha =>
    Fragment.closed_isCanonical.quotedItems quote _ (fun f hf => (h f hf).isCanonical) _ ha
  | .tables h => Fragment.closed_isCanonical.tables fun t ht f hf => (h t ht f hf).isCanonical
  | .clause _ _ h ha =>
    Fragment.closed_isCanonical.clause (fun p hp f hf => (h p hp f hf).isCanonical) ha
  | .statement h => h.has.sql

theorem Builder.Obtained.has {b : Builder} : Builder.Obtained b → b.Has Fragment.IsCanonical
  | .new _ => ⟨canonical_nil, List.forall_mem_nil _, List.forall_mem_nil _⟩
  | .call _ hb hc => hb.has.call Fragment.closed_isCanonical fun f hf => (hc f hf).isCanonical
  | .handedOver style hb => hb.has.handedOver Fragment.closed_isCanonical style

end

/-- Every fragment is canonical. Two of them are equal if and only if what was written for them is
the same once raw text is merged. Concatenation is associative and the empty fragment changes
nothing. A fragment is empty if it renders to nothing under some options, and then it does under
all. -/
theorem obtained_fragments_are_canonical :
    (∀ a, Fragment.Obtained a → a.IsCanonical) ∧
      (∀ a b ps qs, Fragment.Written a ps → Fragment.Written b qs →
        (a.valueEq b = true ↔ Agree (merged ps) (merged qs))) ∧
      (∀ a b c : Fragment, a ++ b ++ c = a ++ (b ++ c)) ∧
      (∀ a : Fragment, .empty ++ a = a ∧ a ++ .empty = a) ∧
      ∀ a, Fragment.Obtained a →
        (a.isEmpty = true ↔ ∃ config, (a.render config).sql = "") ∧
        (a.isEmpty = true ↔ ∀ config, (a.render config).sql = "") := by
  have hempty (config : Config) (a : Fragment) : (a.render config).sql = "" ↔ a.isEmpty = true :=
    Fragment.sql_renderParts_eq_empty_iff config 0 a.parts
  refine ⟨fun a ha => ha.isCanonical, fun a b ps qs ha hb => ?_, Fragment.append_assoc,
    fun a => ⟨Fragment.empty_append a, Fragment.append_empty a⟩, fun a _ => ⟨?_, ?_⟩⟩
  · rw [Fragment.valueEq_iff_agree, ha.parts_eq, hb.parts_eq]
  · exact ⟨fun h => ⟨{}, (hempty {} a).mpr h⟩, fun ⟨config, h⟩ => (hempty config a).mp h⟩
  · exact ⟨fun h config => (hempty config a).mpr h, fun h => (hempty {} a).mp (h {})⟩

/-- A clause that was compiled, and the same clause written text by text with an empty text. -/
theorem obtained_fragments_are_canonical_of_written_clause :
    ∃ clause written : Fragment,
      compileClause .rows true [.ofValue "a" (.scalar (.int 1))] = .ok clause ∧
      Fragment.Obtained clause ∧
      Fragment.Written written
        [.raw " WHERE", .raw "", .raw " a", .raw " = ", .bind (.int 1), .raw ""] ∧
      clause.IsCanonical ∧ clause.valueEq written = true ∧
      clause.isEmpty = false ∧ (clause.render {}).sql = " WHERE a = 1" := by
  have hclause : Fragment.Obtained ⟨[.raw " WHERE a = ", .bind (.int 1)]⟩ :=
    @Fragment.Obtained.clause .rows true [.ofValue "a" (.scalar (.int 1))] _
      (by simp [Predicate.statements, Predicate.ofValue, Value.statements]) rfl
  have hwritten := (((((Fragment.Written.new " WHERE").push "").push " a").push " = ").pushBind
    (.int 1)).push ""
  obtain ⟨hcanonical, hequal, -, -, hempty⟩ := obtained_fragments_are_canonical
  refine ⟨_, _, rfl, hclause, hwritten, hcanonical _ hclause, ?_, ?_, by decide⟩
  · exact (hequal _ _ _ _ (.obtained hclause) hwritten).mpr (.cons rfl (.cons rfl .nil))
  · rw [Bool.eq_false_iff]
    intro h
    have htext := (hempty _ hclause).2.mp h {}
    exact absurd htext (by decide)

end BoundSql
