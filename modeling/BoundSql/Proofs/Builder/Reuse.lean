import BoundSql.Proofs.Builder.Requests

/-!
# Builders that are used again

Once its statement is given up, by a reset or because an executor was asked to run it, a builder is
as good as a new one. All that it still has of its past are its options and the text handed over
last, and this text is only *recalled*: no step reads it, and the next request hides it.

    step_recalling  :  recalling a text and taking a step are interchangeable
    steps_recalling :  and so are recalling a text and a whole run

A statement that continues nothing does not depend on what was accumulated before
(`call_anew`).
-/

namespace BoundSql

/-- The builder, if the text was handed over before its first own request. -/
def Builder.recalling (text : Option String) (b : Builder) : Builder :=
  { b with lastSql := b.lastSql.or text }

/-- The outcome of a builder that recalls the text. -/
def Outcome.recalling {α : Type} (text : Option String) (o : Outcome α) : Outcome α :=
  { o with builder := o.builder.recalling text }

namespace Builder

variable {m : Type → Type} {ρ α : Type} {b : Builder}

/-- The step gives the statement up: it is a reset, or its executor is asked to run it. -/
def givesUp (b : Builder) : Step m ρ → Bool
  | .call .reset => true
  | .call _ => false
  | s => (b.request? s).isSome

/-! ### Recalling a text -/

theorem call_recalling (b : Builder) (text : Option String) (c : Call) :
    (b.recalling text).call c = (b.call c).recalling text := by
  unfold recalling Outcome.recalling
  rw [call_with_lastSql, recalling, lastSql_call]

theorem handedOver_recalling (b : Builder) (text : Option String) (style : PlaceholderStyle) :
    (b.recalling text).handedOver style = (b.handedOver style).recalling text := by
  have hsame : (b.recalling text).statementFor style = b.statementFor style := rfl
  unfold handedOver
  rw [hsame]
  cases b.statementFor style <;> rfl

theorem after_recalling (b : Builder) (text : Option String) (s : Step m ρ) :
    (b.recalling text).after s = (b.after s).recalling text := by
  cases s with
  | call c => exact congrArg Outcome.builder (b.call_recalling text c)
  | fetchAll executor | execute executor => exact b.handedOver_recalling text executor.style

theorem afterAll_recalling (b : Builder) (text : Option String) (steps : List (Step m ρ)) :
    (b.recalling text).afterAll steps = (b.afterAll steps).recalling text := by
  induction steps generalizing b with
  | nil => rfl
  | cons s ss ih =>
    show ((b.recalling text).after s).afterAll ss = _
    rw [after_recalling, ih]
    rfl

/-- What executors are asked does not depend on what was handed over before. -/
theorem requests_recalling (b : Builder) (text : Option String) (steps : List (Step m ρ)) :
    (b.recalling text).requests steps = b.requests steps := by
  induction steps generalizing b with
  | nil => rfl
  | cons s ss ih =>
    have hrequest : (b.recalling text).request? s = b.request? s := by cases s <;> rfl
    rw [requests, requests, hrequest, after_recalling, ih]

/-- A request hides the text that is recalled. -/
theorem afterAll_recalling_of_requests {steps : List (Step m ρ)} (h : b.requests steps ≠ [])
    (text : Option String) : (b.recalling text).afterAll steps = b.afterAll steps := by
  have hlast : (b.afterAll steps).lastSql = some ((b.requests steps).getLast h).statement.sql := by
    rw [lastSql_afterAll, List.getLast?_eq_some_getLast h]
    rfl
  rw [afterAll_recalling, recalling, hlast, Option.some_or, ← hlast]

variable [Monad m] [LawfulMonad m]

theorem run_recalling (b : Builder) (text : Option String) (style : PlaceholderStyle)
    (send : Rendered → m (Except SqlError α)) :
    (b.recalling text).run style send = Outcome.recalling text <$> b.run style send := by
  have hsame : (b.recalling text).statementFor style = b.statementFor style := rfl
  unfold run
  rw [hsame]
  cases b.statementFor style with
  | error e =>
    rw [map_pure]
    rfl
  | ok statement =>
    rw [map_bind]
    simp only [map_pure]
    rfl

/-- A step neither reads the text that was handed over last nor loses it without a new one. -/
theorem step_recalling (b : Builder) (text : Option String) (s : Step m ρ) :
    (b.recalling text).step s = Outcome.recalling text <$> b.step s := by
  cases s with
  | call c =>
    rw [step, step, map_pure, call_recalling]
    rfl
  | fetchAll executor =>
    simp only [step, fetchAll, run_recalling, map_bind, map_pure, bind_map_left]
    rfl
  | execute executor =>
    simp only [step, execute, run_recalling, map_bind, map_pure, bind_map_left]
    rfl

theorem steps_recalling (b : Builder) (text : Option String) (steps : List (Step m ρ)) :
    (b.recalling text).steps steps = List.map (Outcome.recalling text) <$> b.steps steps := by
  induction steps generalizing b with
  | nil => simp [Builder.steps]
  | cons s ss ih =>
    simp only [Builder.steps, step_recalling, bind_map_left, map_bind, map_pure, List.map_cons]
    -- the builder of the first outcome recalls the text, too
    have hrest (o : Outcome (Reply ρ)) :
        (o.recalling text).builder.steps ss =
          List.map (Outcome.recalling text) <$> o.builder.steps ss := ih o.builder
    simp only [hrest, bind_map_left]

/-! ### Statements that are given up -/

omit [Monad m] [LawfulMonad m] in
/-- A builder that has handed its statement over is a new one that recalls the text … -/
theorem handedOver_of_isSome {style : PlaceholderStyle}
    (h : (b.statementFor style).toOption.isSome = true) :
    b.handedOver style = (ofConfig b.config).recalling (b.handedOver style).lastSql := by
  unfold handedOver
  cases hstatement : b.statementFor style with
  | error e =>
    rw [hstatement] at h
    cases h
  | ok statement => rfl

omit [Monad m] [LawfulMonad m] in
/-- … and so is every builder whose statement is given up. -/
theorem after_of_givesUp {s : Step m ρ} (h : b.givesUp s = true) :
    b.after s = (ofConfig b.config).recalling (b.after s).lastSql := by
  cases s with
  | call c =>
    cases c with
    | reset => rfl
    | _ => cases h
  | fetchAll executor | execute executor =>
    exact handedOver_of_isSome (Option.isSome_map.symm.trans h)

/-- After a step that gives the statement up, the run goes on as that of a new builder. -/
theorem steps_of_givesUp {s : Step m ρ} (h : b.givesUp s = true) (steps : List (Step m ρ)) :
    b.steps (s :: steps) =
      (b.step s >>= fun o =>
        (fun os => o :: os.map (Outcome.recalling o.builder.lastSql)) <$>
          (ofConfig b.config).steps steps) := by
  show (b.step s >>= fun o => do pure (o :: (← o.builder.steps steps))) = _
  -- both sides go on from the builder after the step
  rw [step_bind_builder b s fun o c => do pure (o :: (← c.steps steps)),
    step_bind_builder b s fun o c =>
      (fun os => o :: os.map (Outcome.recalling c.lastSql)) <$> (ofConfig b.config).steps steps]
  have hrest : (b.after s).steps steps =
      List.map (Outcome.recalling (b.after s).lastSql) <$> (ofConfig b.config).steps steps := by
    rw [← steps_recalling, ← after_of_givesUp h]
  rw [hrest]
  simp only [bind_pure_comp, Functor.map_map]

omit [Monad m] [LawfulMonad m] in
theorem requests_of_givesUp {s : Step m ρ} (h : b.givesUp s = true) (steps : List (Step m ρ)) :
    b.requests (s :: steps) = (b.request? s).toList ++ (ofConfig b.config).requests steps := by
  rw [requests, after_of_givesUp h, requests_recalling]

omit [Monad m] [LawfulMonad m] in
theorem afterAll_of_givesUp {s : Step m ρ} (h : b.givesUp s = true) {steps : List (Step m ρ)}
    (hrequests : (ofConfig b.config).requests steps ≠ []) :
    b.afterAll (s :: steps) = (ofConfig b.config).afterAll steps := by
  show (b.after s).afterAll steps = _
  rw [after_of_givesUp h, afterAll_recalling_of_requests hrequests]

/-! ### Statements that continue nothing -/

/-- A call that writes a statement anew does the same whatever was there: it fails in the same way
and changes nothing, or it succeeds and leaves the same builder. -/
theorem call_anew (h : b.continuation = none) {c : Call} (hc : c.isStatement = true)
    (sql : Fragment) (type : Option StatementType) :
    let other : Builder := { b with sql, statementType := type }
    (∃ e events, b.call c = ⟨.error e, b, events⟩ ∧ other.call c = ⟨.error e, other, events⟩) ∨
      ((b.call c).result = .ok () ∧ other.call c = b.call c) := by
  intro other
  obtain ⟨effect, heffect⟩ := b.exists_effect hc
  rw [heffect b ⟨rfl, rfl, rfl⟩, heffect other ⟨rfl, rfl, rfl⟩]
  cases effect with
  | fail e events => exact .inl ⟨e, events, rfl, rfl⟩
  | write written statement events rows groups opens =>
    refine .inr ⟨rfl, ?_⟩
    -- what is written anew replaces what was there
    simp only [Effect.on, commit, write, isContinuing, h, other]
    rfl

end Builder

/-- **A reused builder is as good as a fresh one.** Once a builder was reset, or an executor was
asked to run its statement, whatever it answered, every run goes on as that of a new builder with
the same options: with the same results, events and executor calls, and step by step with the same
builder, except that it recalls the text handed over last until there is a new one. And a statement
that continues nothing does not depend on the text accumulated before, nor on its type. -/
theorem reused_builder_is_fresh {m : Type → Type} {ρ : Type} [Monad m] [LawfulMonad m]
    (b : Builder) :
    (∀ (s : Step m ρ) (steps : List (Step m ρ)), b.givesUp s = true →
      let fresh := Builder.ofConfig b.config
      b.steps (s :: steps) =
          (b.step s >>= fun o =>
            (fun os => o :: os.map (Outcome.recalling o.builder.lastSql)) <$> fresh.steps steps) ∧
        b.requests (s :: steps) = (b.request? s).toList ++ fresh.requests steps ∧
        (fresh.requests steps ≠ [] → b.afterAll (s :: steps) = fresh.afterAll steps)) ∧
    (b.continuation = none → ∀ c : Call, c.isStatement = true →
      ∀ (sql : Fragment) (type : Option StatementType),
        let other : Builder := { b with sql, statementType := type }
        (∃ e events,
            b.call c = ⟨.error e, b, events⟩ ∧ other.call c = ⟨.error e, other, events⟩) ∨
          ((b.call c).result = .ok () ∧ other.call c = b.call c)) := by
  refine ⟨fun s steps h => ⟨?_, ?_, ?_⟩, fun h c hc sql type => ?_⟩
  · exact Builder.steps_of_givesUp h steps
  · exact Builder.requests_of_givesUp h steps
  · exact Builder.afterAll_of_givesUp h
  · exact Builder.call_anew h hc sql type

/-- A union that is left open while predicates of both kinds wait. -/
def openUnion : List (Step Id Unit) :=
  [.call (.select false [.plain "users"] [] {}),
    .call (.union (.flag (some true))),
    .call (.filter [.ofValue "id" (.scalar (.int 1))]),
    .call (.having [.ofValue "total" (.scalar (.int 9))])]

/-- A database fails on it, and the next statement is not affected; nor is one that follows a
statement. -/
theorem reused_builder_is_fresh_of_open_union :
    let b := (Builder.ofConfig {}).afterAll openUnion
    let written := (Builder.ofConfig {}).afterAll (openUnion.take 1)
    let failing : Step Id Unit := .execute brokenDatabase
    let steps : List (Step Id Unit) :=
      [.call (.select false [.plain "roles"] [] {}), .fetchAll numberedDatabase]
    b.text = "SELECT * FROM users UNION ALL " ∧
      (b.steps (failing :: steps)).map (fun o => (o.builder.text, o.builder.lastSql)) =
        [("", some b.text), ("SELECT * FROM roles", some b.text),
          ("", some "SELECT * FROM roles")] ∧
      b.requests (failing :: steps) =
        [.execute ⟨b.text, []⟩, .query ⟨"SELECT * FROM roles", []⟩] ∧
      b.afterAll (failing :: steps) = (Builder.ofConfig {}).afterAll steps ∧
      written.call (.truncate "logs") = (Builder.ofConfig {}).call (.truncate "logs") := by
  intro b written failing steps
  obtain ⟨hgiven, -⟩ := @reused_builder_is_fresh Id Unit _ _ b
  obtain ⟨houtcomes, hrequests, hafter⟩ := hgiven failing steps (by decide)
  refine ⟨by decide, ?_, ?_, ?_, ?_⟩
  · rw [houtcomes]
    decide
  · rw [hrequests]
    decide
  · exact hafter (by decide)
  · obtain ⟨-, hanew⟩ := @reused_builder_is_fresh Id Unit _ _ (Builder.ofConfig {})
    rcases hanew rfl (.truncate "logs") rfl written.sql written.statementType with
      ⟨e, events, herror, -⟩ | ⟨-, hsame⟩
    · cases congrArg Outcome.result herror
    · exact hsame

end BoundSql
