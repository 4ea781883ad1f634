import BoundSql.Proofs.Builder.Requests

/-!
# Rendering options stay outside

How a builder renders its statement decides what `text` and `build` answer, and nothing else. Two
builders that differ in their rendering options alone cannot be told apart by any session, in which
further builders are made from them, their statements are embedded in each other, and some of them
are handed to executors (`sessions_ignore_rendering`).

Whatever the rendering options are, they are blanked in a *neutral* builder. The proof compares both
builders with the neutral one, call by call:

    neutral_call  :  (b.neutral.call c).neutral = (b.call c).neutral
    neutral_step  :  the same of a step, whatever its executor answers
-/

namespace BoundSql

/-! ### Sessions -/

/-- Several builders at work, and the statements that were taken from them so far. -/
structure Session where
  builders : List Builder
  statements : List Fragment := []

/-- What is done in a session. Builders are named by their places. -/
inductive Operation (m : Type → Type) (ρ : Type) where
  /-- Make a new builder with the options of one that is there. -/
  | subBuilder (place : Nat)
  /-- Take the statement of a builder as it is now. -/
  | statement (place : Nat)
  /-- Take a step, which may embed the statements that were taken before. -/
  | step (place : Nat) (choose : List Fragment → Step m ρ)

namespace Session

/-- The session with a new builder that has the options of the one at the place. -/
def withSubBuilder (place : Nat) (s : Session) : Session :=
  { s with builders := s.builders ++ (s.builders[place]?.map Builder.subBuilder).toList }

/-- The session with the statement of the builder at the place. -/
def withStatement (place : Nat) (s : Session) : Session :=
  { s with statements := s.statements ++ (s.builders[place]?.map Builder.sql).toList }

def withBuilder (place : Nat) (b : Builder) (s : Session) : Session :=
  { s with builders := s.builders.set place b }

variable {m : Type → Type} {ρ : Type}

/-- Go through operations in turn and collect the outcomes of the steps. -/
def play [Monad m] (s : Session) : List (Operation m ρ) → m (List (Outcome (Reply ρ)))
  | [] => pure []
  | .subBuilder place :: ops => (s.withSubBuilder place).play ops
  | .statement place :: ops => (s.withStatement place).play ops
  | .step place choose :: ops =>
    match s.builders[place]? with
    | none => s.play ops
    | some b => do
      let outcome ← b.step (choose s.statements)
      return outcome :: (← (s.withBuilder place outcome.builder).play ops)

end Session

/-- The operation with a log for its executor. -/
def Operation.logged {m : Type → Type} {ρ : Type} [Monad m] :
    Operation m ρ → Operation (StateT (List Request) m) ρ
  | .subBuilder place => .subBuilder place
  | .statement place => .statement place
  | .step place choose => .step place fun statements => (choose statements).logged

/-! ### Blanking the rendering options -/

/-- The builder with the rendering options of a new one. -/
def Builder.neutral (b : Builder) : Builder :=
  { b with config := { autoQuoteValues := b.config.autoQuoteValues } }

/-- The event without the text of a statement that was written, which is rendered as the builder's
options say. -/
def Event.neutral : Event → Event
  | .compiled type paramCount _ => .compiled type paramCount ""
  | e => e

/-- All of an outcome but what the rendering options decide. -/
def Outcome.neutral {α : Type} (o : Outcome α) : Outcome α :=
  ⟨o.result, o.builder.neutral, o.events.map Event.neutral⟩

def Session.neutral (s : Session) : Session :=
  { s with builders := s.builders.map Builder.neutral }

namespace Builder

variable {m : Type → Type} {ρ α β : Type}

/-! ### Calls and steps -/

/-- The event of a written statement is all that depends on the rendering options. -/
theorem neutral_on (b : Builder) (effect : Effect) :
    (effect.on b.neutral).neutral = (effect.on b).neutral := by
  cases effect with
  | fail e events => rfl
  | write type statement events rows groups opens =>
    simp only [Effect.on, commit, Outcome.neutral, List.map_append]
    rfl

/-- What a call does is the same on a builder with other rendering options. -/
theorem neutral_call (b : Builder) (c : Call) : (b.neutral.call c).neutral = (b.call c).neutral := by
  cases hc : c.isStatement with
  | true =>
    obtain ⟨effect, heffect⟩ := b.exists_effect hc
    rw [heffect b ⟨rfl, rfl, rfl⟩, heffect b.neutral ⟨rfl, rfl, rfl⟩]
    exact b.neutral_on effect
  | false =>
    cases c with
    | union choice =>
      rw [call, call, union, union]
      cases choice.resolve <;> rfl
    | autoQuoteValues _ | filter _ | having _ | appendRaw _ | append _ | reset => rfl
    | select _ _ _ _ | insert _ _ _ _ | update _ _ _ | delete _ _ | truncate _ | createView _ _
    | drop _ _ => cases hc

theorem statementFor_neutral (b : Builder) (style : PlaceholderStyle) :
    b.neutral.statementFor style = b.statementFor style := by
  unfold statementFor
  rw [render_parameterized, render_parameterized]
  rfl

theorem neutral_handedOver (b : Builder) (style : PlaceholderStyle) :
    (b.neutral.handedOver style).neutral = (b.handedOver style).neutral := by
  unfold handedOver
  rw [statementFor_neutral]
  cases b.statementFor style <;> rfl

theorem neutral_after (b : Builder) (s : Step m ρ) :
    (b.neutral.after s).neutral = (b.after s).neutral := by
  cases s with
  | call c => exact congrArg Outcome.builder (b.neutral_call c)
  | fetchAll executor | execute executor => exact b.neutral_handedOver executor.style

variable [Monad m] [LawfulMonad m]

theorem neutral_run (b : Builder) (style : PlaceholderStyle)
    (send : Rendered → m (Except SqlError α)) (reply : α → β) :
    (fun o => (o.map reply).neutral) <$> b.neutral.run style send =
      (fun o => (o.map reply).neutral) <$> b.run style send := by
  unfold run
  rw [statementFor_neutral]
  cases b.statementFor style with
  | error e =>
    simp only [map_pure]
    rfl
  | ok statement =>
    simp only [map_bind, map_pure]
    rfl

/-- What a step does is the same on a builder with other rendering options. -/
theorem neutral_step (b : Builder) (s : Step m ρ) :
    Outcome.neutral <$> b.neutral.step s = Outcome.neutral <$> b.step s := by
  cases s with
  | call c =>
    have hcall (reply : Unit → Reply ρ) :
        ((b.neutral.call c).map reply).neutral = ((b.call c).map reply).neutral :=
      congrArg (Outcome.map reply) (b.neutral_call c)
    simp only [step, map_pure, hcall]
  | fetchAll executor =>
    simpa [step, fetchAll] using b.neutral_run executor.style executor.query Reply.rows
  | execute executor =>
    simpa [step, execute] using b.neutral_run executor.style executor.execute Reply.affected

variable {b b' : Builder}

/-- Builders that agree in all but their rendering options answer alike … -/
theorem step_congr (h : b.neutral = b'.neutral) (s : Step m ρ) :
    Outcome.neutral <$> b.step s = Outcome.neutral <$> b'.step s := by
  rw [← b.neutral_step, h, b'.neutral_step]

omit [Monad m] [LawfulMonad m] in
/-- … and go on agreeing. -/
theorem after_congr (h : b.neutral = b'.neutral) (s : Step m ρ) :
    (b.after s).neutral = (b'.after s).neutral := by
  rw [← b.neutral_after, h, b'.neutral_after]

end Builder

/-! ### Sessions of builders that agree -/

namespace Session

variable {m : Type → Type} {ρ : Type} {s s' : Session}

theorem neutral_getElem? (s : Session) (place : Nat) :
    s.neutral.builders[place]? = s.builders[place]?.map Builder.neutral :=
  List.getElem?_map

theorem neutral_withSubBuilder (s : Session) (place : Nat) :
    (s.withSubBuilder place).neutral = s.neutral.withSubBuilder place := by
  unfold withSubBuilder
  rw [neutral_getElem?]
  simp only [neutral, List.map_append]
  cases s.builders[place]? <;> rfl

theorem neutral_withStatement (s : Session) (place : Nat) :
    (s.withStatement place).neutral = s.neutral.withStatement place := by
  unfold withStatement
  rw [neutral_getElem?]
  cases s.builders[place]? <;> rfl

theorem neutral_withBuilder (s : Session) (place : Nat) (b : Builder) :
    (s.withBuilder place b).neutral = s.neutral.withBuilder place b.neutral := by
  simp only [withBuilder, neutral, List.map_set]

variable [Monad m] [LawfulMonad m]

/-- All that is seen of a session, if a step is taken next. -/
theorem neutral_play_step {place : Nat} {b : Builder} (hb : s.builders[place]? = some b)
    (choose : List Fragment → Step m ρ) (ops : List (Operation m ρ)) :
    List.map Outcome.neutral <$> s.play (.step place choose :: ops) =
      (Outcome.neutral <$> b.step (choose s.statements) >>= fun outcome =>
        (outcome :: ·) <$> (List.map Outcome.neutral <$>
          (s.withBuilder place (b.after (choose s.statements))).play ops)) := by
  simp only [play, hb]
  rw [Builder.step_bind_builder b (choose s.statements) fun outcome c => do
    let rest ← (s.withBuilder place c).play ops
    pure (outcome :: rest)]
  simp

/-- Sessions that agree in all but rendering options look alike. -/
theorem play_congr (h : s.neutral = s'.neutral) (ops : List (Operation m ρ)) :
    List.map Outcome.neutral <$> s.play ops = List.map Outcome.neutral <$> s'.play ops := by
  induction ops generalizing s s' with
  | nil => rfl
  | cons op ops ih =>
    cases op with
    | subBuilder place =>
      apply ih
      rw [neutral_withSubBuilder, h, neutral_withSubBuilder]
    | statement place =>
      apply ih
      rw [neutral_withStatement, h, neutral_withStatement]
    | step place choose =>
      have hplace : s.builders[place]?.map Builder.neutral =
          s'.builders[place]?.map Builder.neutral := by
        rw [← neutral_getElem?, h, neutral_getElem?]
      have hstatements : s.statements = s'.statements :=
        show s.neutral.statements = s'.neutral.statements by rw [h]
      cases hb : s.builders[place]? with
      | none =>
        rw [hb] at hplace
        have hb' : s'.builders[place]? = none := Option.map_eq_none_iff.mp hplace.symm
        simp only [play, hb, hb']
        exact ih h
      | some b =>
        rw [hb] at hplace
        obtain ⟨b', hb', hagree⟩ := Option.map_eq_some_iff.mp hplace.symm
        rw [neutral_play_step hb, neutral_play_step hb', hstatements,
          Builder.step_congr hagree.symm, ih]
        rw [neutral_withBuilder, neutral_withBuilder, h, Builder.after_congr hagree]

end Session

/-- **Rendering options never influence compilation.** Take two builders that agree in all but their
rendering options, and let the same session begin with either of them. Every step has the same
result, or the same error, and leaves behind a builder with the same statement, type, pending
predicates, continuation, quoting, and text handed over last; and executors are asked the same
things in the same order. -/
theorem sessions_ignore_rendering {m : Type → Type} {ρ : Type} [Monad m] [LawfulMonad m]
    (b : Builder) {config config' : Config}
    (h : config.autoQuoteValues = config'.autoQuoteValues) (ops : List (Operation m ρ)) :
    let first : Session := { builders := [{ b with config }] }
    let second : Session := { builders := [{ b with config := config' }] }
    List.map Outcome.neutral <$> first.play ops = List.map Outcome.neutral <$> second.play ops ∧
      ∀ log, Prod.map (List.map Outcome.neutral) id <$>
          (first.play (ops.map Operation.logged)).run log =
        Prod.map (List.map Outcome.neutral) id <$>
          (second.play (ops.map Operation.logged)).run log := by
  intro first second
  have hagree : first.neutral = second.neutral := by
    show Session.mk [Builder.neutral { b with config }] [] =
      Session.mk [Builder.neutral { b with config := config' }] []
    unfold Builder.neutral
    rw [h]
  refine ⟨Session.play_congr hagree ops, fun log => ?_⟩
  -- executors with logs are executors, too
  have hlogged := congrArg (StateT.run · log)
    (Session.play_congr hagree (ops.map Operation.logged))
  simp only [StateT.run_map] at hlogged
  exact hlogged

/-- A statement with a quote in its value is embedded in another one, which is handed over after a
call that fails. -/
def embeddingSession : List (Operation Id Unit) :=
  [.subBuilder 0,
    .step 1 fun _ => .call (.filter [.ofValue "name" (.scalar (.text "o'neil"))]),
    .step 1 fun _ => .call (.select false [.plain "admins"] ["id"] {}),
    .statement 1,
    .step 0 fun statements => .call (.filter [.inList "id" (statements.map .statement)]),
    .step 0 fun _ => .call (.select false [.plain "users"] [] {}),
    .step 0 fun _ => .call (.drop "users" "tree"),
    .step 0 fun _ => .fetchAll numberedDatabase]

/-- The two builders show different texts, and their database is asked the same. -/
theorem sessions_ignore_rendering_of_embedding :
    let literal : Session := { builders := [.ofConfig {}] }
    let numbered : Session := { builders := [.ofConfig (.parameterized .numbered)] }
    let request : Request := .query
      ⟨"SELECT * FROM users WHERE id IN ((SELECT id FROM admins WHERE name = $1))",
        [.text "o'neil"]⟩
    ((literal.play embeddingSession).map fun o => o.builder.text)[3]? =
        some "SELECT * FROM users WHERE id IN ((SELECT id FROM admins WHERE name = 'o'neil'))" ∧
      ((numbered.play embeddingSession).map fun o => o.builder.text)[3]? =
        some "SELECT * FROM users WHERE id IN ((SELECT id FROM admins WHERE name = $1))" ∧
      (literal.play embeddingSession).map Outcome.neutral =
        (numbered.play embeddingSession).map Outcome.neutral ∧
      ((literal.play (embeddingSession.map .logged)).run []).2 = [request] ∧
      ((numbered.play (embeddingSession.map .logged)).run []).2 = [request] := by
  intro literal numbered request
  obtain ⟨houtcomes, hlogs⟩ := sessions_ignore_rendering (Builder.ofConfig {})
    (show Config.autoQuoteValues {} = (Config.parameterized .numbered).autoQuoteValues from rfl)
    embeddingSession
  have hliteral : ((literal.play (embeddingSession.map .logged)).run []).2 = [request] := by
    decide
  have hlog := congrArg Prod.snd (show Prod.map (List.map Outcome.neutral) id
        ((literal.play (embeddingSession.map .logged)).run []) =
      Prod.map (List.map Outcome.neutral) id
        ((numbered.play (embeddingSession.map .logged)).run []) from hlogs [])
  rw [Prod.map_snd, Prod.map_snd, id, id, hliteral] at hlog
  exact ⟨by decide, by decide, houtcomes, hliteral, hlog.symm⟩

end BoundSql
