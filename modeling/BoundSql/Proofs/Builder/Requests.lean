import BoundSql.Proofs.Builder.Effects
import BoundSql.Proofs.Builder.Refusal
import BoundSql.Proofs.Fragment.Skeleton

/-!
# What executors are asked

A builder asks an executor when its statement is handed over and not refused, and at no other time.
The executor receives the statement in its own placeholder style, whatever the rendering options of
the builder are, and its answer is returned as it is. Afterwards the builder keeps its options and
the text that it has sent, and nothing else.

What executors are asked during a run can be read off the builder alone (`requests`). That this is
what they see follows from giving each of them a log:

    run_steps_logged  :  the logs of a run hold exactly its requests, in order
    lastSql_afterAll  :  the text handed over last is the text of the last request
-/

namespace BoundSql

/-! ### Requests and their log -/

/-- What an executor is asked to do. -/
inductive Request where
  | query (statement : Rendered)
  | execute (statement : Rendered)
  deriving DecidableEq

def Request.statement : Request → Rendered
  | .query statement | .execute statement => statement

section

variable {m : Type → Type} {ρ : Type} [Monad m]

/-- The executor with a log, to which every request is added before it is answered. -/
def Executor.logged (executor : Executor m ρ) : Executor (StateT (List Request) m) ρ where
  style := executor.style
  query statement := do
    modify (· ++ [.query statement])
    executor.query statement
  execute statement := do
    modify (· ++ [.execute statement])
    executor.execute statement

/-- The step with a log for its executor. -/
def Step.logged : Step m ρ → Step (StateT (List Request) m) ρ
  | .call c => .call c
  | .fetchAll executor => .fetchAll executor.logged
  | .execute executor => .execute executor.logged

end

namespace Builder

variable {m : Type → Type} {ρ α : Type}

/-- What the executor of a step is asked, unless the hand-over is refused. -/
def request? (b : Builder) : Step m ρ → Option Request
  | .call _ => none
  | .fetchAll executor => (b.statementFor executor.style).toOption.map .query
  | .execute executor => (b.statementFor executor.style).toOption.map .execute

/-- What executors are asked during a run, in order. -/
def requests (b : Builder) : List (Step m ρ) → List Request
  | [] => []
  | s :: ss => (b.request? s).toList ++ (b.after s).requests ss

/-! ### The statement that is handed over -/

/-- With placeholders for its scalars, a fragment is written according to the style alone. -/
theorem render_parameterized (config : Config) (style : PlaceholderStyle) (a : Fragment) :
    a.render { config with render := .parameterized, placeholder := style } =
      a.render (.parameterized style) := by
  show Fragment.renderParts _ 0 a.parts = Fragment.renderParts _ 0 a.parts
  rw [Fragment.renderParts_eq_render, Fragment.renderParts_eq_render]
  rfl

variable {b : Builder} {style : PlaceholderStyle}

theorem statementFor_of_isEmpty (h : b.sql.isEmpty = true) :
    b.statementFor style = .error (.invalidArgument .noStatement) := by
  rw [statementFor, if_pos h]

theorem statementFor_of_unbound (h : b.sql.isEmpty = false) (hstyle : style = .numbered)
    (hcount : 0 < b.sql.placeholderCount) :
    b.statementFor style =
      .error (.invalidArgument (.unboundPlaceholders b.sql.placeholderCount)) := by
  have hsome : (style = .numbered && 0 < b.sql.placeholderCount : Bool) = true := by
    simp [hstyle, hcount]
  rw [statementFor, h, hsome]
  rfl

theorem statementFor_of_bound (h : b.sql.isEmpty = false)
    (hbound : style = .numbered → b.sql.placeholderCount = 0) :
    b.statementFor style = .ok (b.sql.render (.parameterized style)) := by
  have hnone : (style = .numbered && 0 < b.sql.placeholderCount : Bool) = false := by
    simpa using hbound
  rw [statementFor, h, hnone, render_parameterized]
  rfl

theorem render_of_statementFor {statement : Rendered} (h : b.statementFor style = .ok statement) :
    statement = b.sql.render (.parameterized style) ∧
      (style = .numbered → b.sql.placeholderCount = 0) := by
  cases hempty : b.sql.isEmpty with
  | true =>
    rw [statementFor_of_isEmpty hempty] at h
    cases h
  | false =>
    have hbound : style = .numbered → b.sql.placeholderCount = 0 := by
      intro hstyle
      rcases Nat.eq_zero_or_pos b.sql.placeholderCount with hcount | hcount
      · exact hcount
      · rw [statementFor_of_unbound hempty hstyle hcount] at h
        cases h
    rw [statementFor_of_bound hempty hbound] at h
    cases h
    exact ⟨rfl, hbound⟩

/-- How a builder speaks through `send` to an executor of the style: what comes of the exchange in
each of the three cases. The executor is asked in the last one only. -/
structure Exchanges [Monad m] (b : Builder) (style : PlaceholderStyle)
    (send : Rendered → m (Except SqlError α)) (exchange : m (Outcome α)) : Prop where
  empty : b.sql.isEmpty = true →
    exchange = pure ⟨.error (.invalidArgument .noStatement), b, []⟩
  unbound : b.sql.isEmpty = false → style = .numbered → 0 < b.sql.placeholderCount →
    exchange = pure
      ⟨.error (.invalidArgument (.unboundPlaceholders b.sql.placeholderCount)), b, []⟩
  sent : b.sql.isEmpty = false → (style = .numbered → b.sql.placeholderCount = 0) →
    let statement := b.sql.render (.parameterized style)
    exchange =
      (fun answer =>
        { result := answer
          builder := { config := b.config, lastSql := some statement.sql }
          events := [.executing b.statementType statement.params.length statement.sql] }) <$>
        send statement

/-! ### The text handed over last -/

/-- No call reads or changes the text handed over last. -/
theorem call_with_lastSql (b : Builder) (text : Option String) (c : Call) :
    { b with lastSql := text }.call c =
      { b.call c with builder := { (b.call c).builder with lastSql := text } } := by
  cases hc : c.isStatement with
  | true =>
    obtain ⟨effect, heffect⟩ := b.exists_effect hc
    rw [heffect b ⟨rfl, rfl, rfl⟩, heffect { b with lastSql := text } ⟨rfl, rfl, rfl⟩]
    cases effect <;> rfl
  | false =>
    cases c with
    | union choice =>
      rw [call, call, union, union]
      cases choice.resolve <;> rfl
    | autoQuoteValues _ | filter _ | having _ | appendRaw _ | append _ | reset => rfl
    | select _ _ _ _ | insert _ _ _ _ | update _ _ _ | delete _ _ | truncate _ | createView _ _
    | drop _ _ => cases hc

theorem lastSql_call (b : Builder) (c : Call) : (b.call c).builder.lastSql = b.lastSql :=
  congrArg (fun o => o.builder.lastSql) (b.call_with_lastSql b.lastSql c)

theorem lastSql_handedOver (b : Builder) (style : PlaceholderStyle) :
    (b.handedOver style).lastSql =
      ((b.statementFor style).toOption.map Rendered.sql).or b.lastSql := by
  unfold handedOver
  cases b.statementFor style <;> rfl

/-- A step that asks an executor sets the text handed over last, and no other step does. -/
theorem lastSql_after (b : Builder) (s : Step m ρ) :
    (b.after s).lastSql = ((b.request? s).map fun r => r.statement.sql).or b.lastSql := by
  cases s with
  | call c => exact b.lastSql_call c
  | fetchAll executor | execute executor =>
    rw [after, lastSql_handedOver, request?, Option.map_map]
    rfl

/-- The text handed over last is that of the last request, if there was one. -/
theorem lastSql_afterAll (b : Builder) (steps : List (Step m ρ)) :
    (b.afterAll steps).lastSql =
      ((b.requests steps).getLast?.map fun r => r.statement.sql).or b.lastSql := by
  induction steps generalizing b with
  | nil => rfl
  | cons s ss ih =>
    show ((b.after s).afterAll ss).lastSql = _
    rw [ih, lastSql_after, requests, List.getLast?_append]
    -- a request of the later steps hides that of the first one
    cases ((b.after s).requests ss).getLast? <;> cases b.request? s <;> rfl

/-! ### Logged runs -/

variable [Monad m] [LawfulMonad m]

theorem exchanges_run (b : Builder) (style : PlaceholderStyle)
    (send : Rendered → m (Except SqlError α)) : b.Exchanges style send (b.run style send) := by
  refine ⟨fun h => ?_, fun h hstyle hcount => ?_, fun h hbound => ?_⟩
  · exact run_of_error (statementFor_of_isEmpty h) send
  · exact run_of_error (statementFor_of_unbound h hstyle hcount) send
  · rw [run, statementFor_of_bound h hbound]
    exact bind_pure_comp _ _

/-- If asking adds a request to the log, a hand-over adds it exactly if it is not refused. -/
theorem run_run_logged (b : Builder) (style : PlaceholderStyle)
    (send : Rendered → m (Except SqlError α))
    (sendLogged : Rendered → StateT (List Request) m (Except SqlError α))
    (request : Rendered → Request)
    (hsend : ∀ statement log, (sendLogged statement).run log =
      (fun answer => (answer, log ++ [request statement])) <$> send statement)
    (log : List Request) :
    (b.run style sendLogged).run log =
      (fun o => (o, log ++ ((b.statementFor style).toOption.map request).toList)) <$>
        b.run style send := by
  unfold run
  cases b.statementFor style with
  | error e => simp [Except.toOption]
  | ok statement => simp [Except.toOption, hsend]

/-- The log of a step holds what its executor is asked. -/
theorem run_step_logged (b : Builder) (s : Step m ρ) (log : List Request) :
    (b.step s.logged).run log =
      (fun o => (o, log ++ (b.request? s).toList)) <$> b.step s := by
  cases s with
  | call c => simp [Step.logged, step, request?]
  | fetchAll executor =>
    have hrun := b.run_run_logged executor.style executor.query executor.logged.query .query
      (fun statement log => by simp [Executor.logged]) log
    show (Outcome.map Reply.rows <$> b.run executor.style executor.logged.query).run log = _
    rw [StateT.run_map, hrun, step, fetchAll, request?]
    simp
  | execute executor =>
    have hrun := b.run_run_logged executor.style executor.execute executor.logged.execute .execute
      (fun statement log => by simp [Executor.logged]) log
    show (Outcome.map Reply.affected <$> b.run executor.style executor.logged.execute).run log = _
    rw [StateT.run_map, hrun, step, execute, request?]
    simp

/-- The logs of a run hold exactly its requests, in order, whatever executors answer. -/
theorem run_steps_logged (b : Builder) (steps : List (Step m ρ)) (log : List Request) :
    (b.steps (steps.map Step.logged)).run log =
      (fun outcomes => (outcomes, log ++ b.requests steps)) <$> b.steps steps := by
  induction steps generalizing b log with
  | nil => simp [Builder.steps, requests]
  | cons s ss ih =>
    simp only [List.map_cons, Builder.steps, StateT.run_bind, run_step_logged, ih, requests,
      bind_map_left, map_bind, StateT.run_pure, map_pure]
    -- both runs go on from the builder after the step, whose requests are known
    rw [step_bind_builder b s fun o c => do
        let rest ← c.steps ss
        pure (o :: rest, log ++ (b.request? s).toList ++ c.requests ss),
      step_bind_builder b s fun o c => do
        let rest ← c.steps ss
        pure (o :: rest, log ++ ((b.request? s).toList ++ (b.after s).requests ss))]
    simp only [List.append_assoc]

/-- In every outcome of a run, the text handed over last is that of the last request so far. -/
theorem lastSql_steps (b : Builder) (steps : List (Step m ρ)) :
    List.map (fun o => o.builder.lastSql) <$> b.steps steps =
      (fun _ => (List.range steps.length).map fun i =>
        ((b.requests (steps.take (i + 1))).getLast?.map fun r => r.statement.sql).or b.lastSql) <$>
        b.steps steps := by
  have hbuilders := congrArg (List.map Builder.lastSql <$> ·) (b.builders_steps steps)
  simp only [Functor.map_map, List.map_map, Function.comp_def, lastSql_afterAll] at hbuilders
  exact hbuilders

end Builder

/-- **The protocol with executors.** A statement that is handed over is refused if it is empty, or
if it holds placeholders of the caller and the executor numbers its parameters; then nobody is asked
and nothing changes. Otherwise the executor is asked once, for the statement in its own style, its
answer is the result, and the builder keeps its options and the text it has sent. During a run,
executors are asked what `requests` says and nothing else, and after each step the text handed over
last is that of the last request so far. -/
theorem executors_are_asked_once {m : Type → Type} {ρ : Type} [Monad m] [LawfulMonad m]
    (b : Builder) (executor : Executor m ρ) (config : Config) (steps : List (Step m ρ))
    (log : List Request) :
    let start := Builder.ofConfig config
    b.Exchanges executor.style executor.query (b.fetchAll executor) ∧
      b.Exchanges executor.style executor.execute (b.execute executor) ∧
      (start.steps (steps.map Step.logged)).run log =
        (fun outcomes => (outcomes, log ++ start.requests steps)) <$> start.steps steps ∧
      List.map (fun o => o.builder.lastSql) <$> start.steps steps =
        (fun _ => (List.range steps.length).map fun i =>
          (start.requests (steps.take (i + 1))).getLast?.map fun r => r.statement.sql) <$>
          start.steps steps := by
  intro start
  refine ⟨b.exchanges_run _ _, b.exchanges_run _ _, start.run_steps_logged steps log, ?_⟩
  have hlast := start.lastSql_steps steps
  -- nothing was handed over before the run
  simp only [show start.lastSql = none from rfl, Option.or_none] at hlast
  exact hlast

/-- A database whose driver fails, whatever it is asked. -/
def brokenDatabase : Executor Id Unit where
  query _ := .error (.query ⟨"connection reset"⟩)
  execute _ := .error (.query ⟨"connection reset"⟩)

/-- A statement is handed over, one is refused because of its placeholder until it is given up, one
fails, and then there is none. -/
def handOvers : List (Step Id Unit) :=
  [.call (.filter [.ofValue "id" (.scalar (.int 1))]),
    .call (.select false [.plain "users"] [] {}),
    .fetchAll numberedDatabase,
    .call (.insert false "logs" .placeholder []),
    .execute numberedDatabase,
    .call (.truncate "logs"),
    .execute brokenDatabase,
    .execute brokenDatabase]

/-- Two of the four hand-overs reach their databases. -/
theorem executors_are_asked_once_of_hand_overs :
    let start := Builder.ofConfig {}
    let waiting := start.afterAll (handOvers.take 4)
    let first : Request := .query ⟨"SELECT * FROM users WHERE id = $1", [.int 1]⟩
    let second : Request := .execute ⟨"DELETE FROM logs", []⟩
    waiting.execute numberedDatabase =
        pure ⟨.error (.invalidArgument (.unboundPlaceholders 1)), waiting, []⟩ ∧
      ((start.steps (handOvers.map Step.logged)).run []).2 = [first, second] ∧
      (start.steps handOvers).map (fun o => o.builder.lastSql) =
        [none, none, some first.statement.sql, some first.statement.sql,
          some first.statement.sql, some first.statement.sql, some second.statement.sql,
          some second.statement.sql] := by
  intro start waiting first second
  obtain ⟨-, hexecute, hlog, hlast⟩ :=
    executors_are_asked_once waiting numberedDatabase {} handOvers []
  refine ⟨hexecute.unbound (by decide) rfl (by decide), (congrArg Prod.snd hlog).trans ?_,
    hlast.trans ?_⟩
  · show [] ++ start.requests handOvers = [first, second]
    decide
  · show List.map _ (List.range 8) = _
    decide

end BoundSql
