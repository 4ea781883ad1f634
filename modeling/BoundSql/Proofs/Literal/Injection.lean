import BoundSql.Proofs.Builder.Orderly
import BoundSql.Proofs.Literal.Lexer

/-!
# No value escapes from its literal

Whatever the values of a statement are, the string literals that a database finds in its literal text
are these values, one literal each, and the text between them is the compiler's and the callers' own
(`stringLiterals_render_of_reached`). Needed for this are quoting and escaping, and that callers write
no quote of their own into the texts they supply.
-/

namespace BoundSql

/-- A call that leaves quoting on and supplies no quote in a text that is written as it is. -/
structure Call.QuoteFree (c : Call) : Prop where
  quoting : c ≠ .autoQuoteValues false
  texts : ∀ s ∈ c.texts, '\'' ∉ s.toList

/-- Calls without quotes keep the rule against them; any text may follow a bound scalar. -/
theorem Call.QuoteFree.keeps {c : Call} (h : c.QuoteFree)
    (hc : ∀ f ∈ c.statements, f.Appendable quoteFree) : c.Keeps quoteFree where
  quoting := h.quoting
  texts s hs c hc := by
    rintro rfl
    exact h.texts s hs hc
  statements := hc
  head _ _ _ _ := rfl

/-- The accumulated statement of every builder that calls without quotes lead to reads back as the
scalars bound in it, if it is rendered as literal text with escaping on: the text does not end inside
a literal, and the contents of its literals are the texts of the bound scalars other than integers,
from left to right. -/
theorem stringLiterals_render_of_reached {b : Builder}
    (h : Reached (fun config => config.autoQuoteValues = true) Call.QuoteFree b) (config : Config) :
    stringLiterals (b.sql.render { config with render := .literal, escapeLiterals := true }).sql =
      some (b.sql.binds.filterMap Scalar.quotedText?) :=
  stringLiterals_render rfl rfl
    (h.keeps (fun _ hc => hc) fun _ hc hf => hc.keeps hf).sql.toOrderly

/-- A statement with a statement in it and another one appended, where every value tries to end its
literal. -/
theorem stringLiterals_render_of_hostile_values :
    let admins := (((Builder.ofConfig {}).call
      (.filter [.ofValue "name" (.scalar (.text "x' OR '1'='1"))])).builder.call
      (.select false [.plain "admins"] ["id"] {})).builder
    let users := (((((Builder.ofConfig {}).call
      (.filter [.inList "id" [.scalar (.text "'"), .scalar (.int 7), .statement admins.sql]])).builder.call
      (.update [.plain "users"] (.pairs [("note", .scalar (.text ""))]) none)).builder.call
      (.appendRaw "; ")).builder.call
      (.append admins.sql)).builder
    Reached (fun config => config.autoQuoteValues = true) Call.QuoteFree users ∧
      stringLiterals (users.sql.render { render := .literal, escapeLiterals := true }).sql =
        some ["", "'", "x' OR '1'='1", "x' OR '1'='1"] := by
  intro admins users
  have hadmins : Reached (fun config => config.autoQuoteValues = true) Call.QuoteFree admins := by
    refine .call (.call (.new rfl) ⟨by simp, by decide⟩ ?_) ⟨by simp, by decide⟩ ?_
    · exact List.forall_mem_nil _
    · exact List.forall_mem_nil _
  have husers : Reached (fun config => config.autoQuoteValues = true) Call.QuoteFree users := by
    refine .call (.call (.call (.call (.new rfl) ⟨by simp, by decide⟩ ?_) ⟨by simp, by decide⟩ ?_)
      ⟨by simp, by decide⟩ ?_) ⟨by simp, by decide⟩ ?_
    · exact List.forall_mem_singleton.mpr (.of hadmins)
    · exact List.forall_mem_nil _
    · exact List.forall_mem_nil _
    · exact List.forall_mem_singleton.mpr (.of hadmins)
  refine ⟨husers, (stringLiterals_render_of_reached husers {}).trans ?_⟩
  decide

end BoundSql
