import BoundSql.Fragment.Lemmas
import BoundSql.Proofs.Builder.Calls
import BoundSql.Proofs.Builder.Reached

/-!
# What a builder has accumulated

Every step of a builder makes a *contribution* to the accumulated statement: a text that is put
behind what is there, a text that starts anew, or nothing. From the contributions so far, the newest
first, follows all that a builder shows of its statement:

    accumulated : the texts since the last restart, in call order
    pending     : whether the last contribution that matters was a union or the beginning of a view
    lastType    : the type of the text that was written last

The hidden continuation of the builder and the text it keeps agree with them after every run
(`accumulation_law`).
-/

namespace BoundSql

open Fragment (raw)

/-! ### Contributions -/

/-- What a step does to the accumulated statement. -/
inductive Contribution where
  /-- A statement, which starts anew unless it continues something. -/
  | statement (type : StatementType) (text : Fragment)
  /-- The beginning of a view, which does so as well, and which the next statement continues. -/
  | view (text : Fragment)
  /-- A word between two statements, of which the second continues the first. -/
  | union (mode : UnionMode)
  | raw (text : Fragment)
  /-- The statement is given up. -/
  | restart
  | nothing
  deriving DecidableEq

namespace Contribution

/-- The text that a contribution adds. -/
def text : Contribution → Fragment
  | statement _ text | view text | raw text => text
  | union mode => .raw mode.text
  | restart | nothing => .empty

/-- It matters for how the next statement is written. -/
def isDecisive : Contribution → Bool
  | statement _ _ | view _ | union _ | restart => true
  | raw _ | nothing => false

/-- The next statement continues it. -/
def isOpen : Contribution → Bool
  | view _ | union _ => true
  | statement _ _ | raw _ | restart | nothing => false

def isRestart : Contribution → Bool
  | restart => true
  | statement _ _ | view _ | union _ | raw _ | nothing => false

/-- The type of what it writes; a union is no statement. -/
def type? : Contribution → Option StatementType
  | statement type _ => some type
  | view _ | raw _ => some .raw
  | union _ | restart | nothing => none

/-- The last contribution that matters is one that the next statement continues. -/
def pending (past : List Contribution) : Bool := (past.find? isDecisive).any isOpen

/-- Nothing before the contribution is kept. -/
def startsAnew (past : List Contribution) : Contribution → Bool
  | restart => true
  | statement _ _ | view _ => !pending past
  | union _ | raw _ | nothing => false

/-- The contributions since the last one that started anew, and that one. -/
def sinceRestart : List Contribution → List Contribution
  | [] => []
  | c :: past => if c.startsAnew past then [c] else c :: sinceRestart past

/-- The texts of these contributions in call order. -/
def accumulated (past : List Contribution) : Fragment :=
  (sinceRestart past).reverse.foldl (fun sql c => sql ++ c.text) .empty

/-- The type of what was written last since the statement was given up. -/
def lastType (past : List Contribution) : Option StatementType :=
  (past.takeWhile (!·.isRestart)).findSome? type?

end Contribution

namespace Builder

variable {m : Type → Type} {ρ : Type}

/-- What a call contributes if it succeeds. -/
def contributionOf (b : Builder) : Call → Contribution
  | .autoQuoteValues _ | .filter _ | .having _ => .nothing
  | .appendRaw text => .raw (raw text)
  | .append statement => .raw statement
  | .createView name replace =>
    .view (raw "CREATE " ++ raw (if replace then "OR REPLACE " else "") ++ raw "VIEW " ++
      raw name ++ raw " AS ")
  | .union choice =>
    match choice.resolve with
    | .ok mode => .union mode
    | .error _ => .nothing
  | .reset => .restart
  | c =>
    match c.type? with
    | some type => .statement type (b.own c)
    | none => .nothing

/-- What it contributes to offer the statement to an executor: a statement that is not handed over
stays. -/
def contributionFor (b : Builder) (style : PlaceholderStyle) : Contribution :=
  match b.statementFor style with
  | .ok _ => .restart
  | .error _ => .nothing

/-- What a step contributes, which is nothing for a call that fails. -/
def contribution (b : Builder) : Step m ρ → Contribution
  | .call c =>
    match (b.call c).result with
    | .ok _ => b.contributionOf c
    | .error _ => .nothing
  | .fetchAll executor => b.contributionFor executor.style
  | .execute executor => b.contributionFor executor.style

/-- The contributions of a run, in call order. -/
def contributions (b : Builder) : List (Step m ρ) → List Contribution
  | [] => []
  | s :: ss => b.contribution s :: (b.after s).contributions ss

end Builder

/-! ### One more contribution -/

namespace Contribution

theorem accumulated_cons (c : Contribution) (past : List Contribution) :
    accumulated (c :: past) =
      if c.startsAnew past then c.text else accumulated past ++ c.text := by
  unfold accumulated
  rw [sinceRestart]
  split
  · exact Fragment.empty_append c.text
  · rw [List.reverse_cons, List.foldl_append]
    rfl

theorem pending_cons (c : Contribution) (past : List Contribution) :
    pending (c :: past) = if c.isDecisive then c.isOpen else pending past := by
  unfold pending
  rw [List.find?_cons]
  cases c.isDecisive <;> rfl

theorem lastType_cons (c : Contribution) (past : List Contribution) :
    lastType (c :: past) = if c.isRestart then none else c.type?.or (lastType past) := by
  unfold lastType
  rw [List.takeWhile_cons]
  cases c.isRestart with
  | true => rfl
  | false =>
    simp only [Bool.not_false, if_true, List.findSome?_cons]
    cases c.type? <;> rfl

end Contribution

/-! ### One more step -/

open Contribution (accumulated pending lastType accumulated_cons pending_cons lastType_cons)

namespace Builder

variable {b c : Builder} {past : List Contribution}

/-- The builder shows what follows from the contributions so far. -/
structure Shows (b : Builder) (past : List Contribution) : Prop where
  sql : b.sql = accumulated past
  continuing : b.isContinuing = pending past
  type : b.statementType = lastType past

theorem shows_ofConfig (config : Config) : (ofConfig config).Shows [] := ⟨rfl, rfl, rfl⟩

/-- Options, pending predicates and the text handed over last do not show. -/
theorem Shows.nothing (h : b.Shows past) (hsql : c.sql = b.sql)
    (hcontinuation : c.continuation = b.continuation) (htype : c.statementType = b.statementType) :
    c.Shows (.nothing :: past) := by
  refine ⟨?_, ?_, ?_⟩
  · rw [hsql, h.sql, accumulated_cons]
    exact (Fragment.append_empty _).symm
  · rw [isContinuing, hcontinuation, pending_cons]
    exact h.continuing
  · rw [htype, h.type, lastType_cons]
    rfl

theorem Shows.restart (hsql : c.sql = .empty) (hcontinuation : c.continuation = none)
    (htype : c.statementType = none) : c.Shows (.restart :: past) := by
  refine ⟨?_, ?_, ?_⟩
  · rw [hsql, accumulated_cons]
    rfl
  · rw [isContinuing, hcontinuation, pending_cons]
    rfl
  · rw [htype, lastType_cons]
    rfl

theorem Shows.append (h : b.Shows past) (fragment : Fragment) :
    (b.append fragment).Shows (.raw fragment :: past) := by
  refine ⟨?_, ?_, ?_⟩
  · rw [accumulated_cons, ← h.sql]
    rfl
  · rw [pending_cons]
    exact h.continuing
  · rw [lastType_cons]
    rfl

theorem Shows.union (h : b.Shows past) (mode : UnionMode) :
    { b with sql := b.sql ++ raw mode.text, continuation := some (.union mode) }.Shows
      (.union mode :: past) := by
  refine ⟨?_, ?_, ?_⟩
  · rw [accumulated_cons, ← h.sql]
    rfl
  · rw [pending_cons]
    rfl
  · rw [lastType_cons]
    exact h.type

/-- What a builder has accumulated after a statement was written. -/
theorem Shows.sql_write (h : b.Shows past) {d : Contribution}
    (hstart : d.startsAnew past = !pending past)
    (hsql : c.sql = if b.isContinuing then b.sql ++ d.text else d.text) :
    c.sql = accumulated (d :: past) := by
  -- the builder's continuation and the history agree on whether the statement starts anew
  rw [hsql, accumulated_cons, hstart, ← h.continuing, h.sql]
  cases b.isContinuing <;> rfl

theorem Shows.view (h : b.Shows past) {statement : Fragment}
    (hsql : c.sql = if b.isContinuing then b.sql ++ statement else statement)
    (hcontinuation : c.continuation = some .createView) (htype : c.statementType = some .raw) :
    c.Shows (.view statement :: past) := by
  refine ⟨h.sql_write rfl hsql, ?_, ?_⟩
  · rw [isContinuing, hcontinuation, pending_cons]
    rfl
  · rw [htype, lastType_cons]
    rfl

/-! ### One more call -/

theorem Shows.wrote (h : b.Shows past) {type : StatementType} {statement : Fragment}
    (hwrote : b.Wrote type statement c) : c.Shows (.statement type statement :: past) := by
  refine ⟨h.sql_write rfl hwrote.sql, ?_, ?_⟩
  · rw [isContinuing, hwrote.continuation, pending_cons]
    rfl
  · rw [hwrote.type, lastType_cons]
    rfl

theorem contributionOf_of_type {call : Call} {type : StatementType}
    (h : call.type? = some type) : b.contributionOf call = .statement type (b.own call) := by
  cases call with
  | select _ _ _ _ | insert _ _ _ _ | update _ _ _ | delete _ _ | truncate _ | drop _ _ =>
    cases h
    rfl
  | autoQuoteValues _ | filter _ | having _ | appendRaw _ | append _ | createView _ _ | union _
  | reset => cases h

/-- A call that succeeds shows as its contribution. -/
theorem Shows.call (h : b.Shows past) {call : Call} (hok : (b.call call).result = .ok ()) :
    (b.call call).builder.Shows (b.contributionOf call :: past) := by
  cases htype : call.type? with
  | some type =>
    rw [contributionOf_of_type htype]
    exact h.wrote (wrote_of_ok htype hok)
  | none =>
    cases call with
    | autoQuoteValues _ | filter _ | having _ => exact h.nothing rfl rfl rfl
    | appendRaw text => exact h.append (raw text)
    | append statement => exact h.append statement
    | createView name replace => exact h.view rfl rfl rfl
    | union choice =>
      rw [Builder.call, Builder.union] at hok ⊢
      rw [contributionOf]
      cases hmode : choice.resolve with
      | error e =>
        rw [hmode] at hok
        cases hok
      | ok mode => exact h.union mode
    | reset => exact .restart rfl rfl rfl
    | select _ _ _ _ | insert _ _ _ _ | update _ _ _ | delete _ _ | truncate _ | drop _ _ =>
      cases htype

/-- Handing the statement over gives it up; if that is refused, nothing changes. -/
theorem Shows.handedOver (h : b.Shows past) (style : PlaceholderStyle) :
    (b.handedOver style).Shows (b.contributionFor style :: past) := by
  unfold Builder.handedOver contributionFor
  cases b.statementFor style with
  | error e => exact h.nothing rfl rfl rfl
  | ok statement => exact .restart rfl rfl rfl

variable {m : Type → Type} {ρ : Type}

/-- Whatever a builder shows, it still does after one more step. -/
theorem Shows.step (h : b.Shows past) (s : Step m ρ) :
    (b.after s).Shows (b.contribution s :: past) := by
  cases s with
  | call call =>
    rw [after, contribution]
    cases hresult : (b.call call).result with
    | ok => exact h.call hresult
    | error e =>
      rw [builder_call_of_error hresult]
      exact h.nothing rfl rfl rfl
  | fetchAll executor => exact h.handedOver executor.style
  | execute executor => exact h.handedOver executor.style

/-- … and so it does after a run. -/
theorem Shows.steps (h : b.Shows past) (steps : List (Step m ρ)) :
    (b.afterAll steps).Shows ((b.contributions steps).reverse ++ past) := by
  -- the first step is the oldest of those that are added
  induction steps generalizing b past with
  | nil => exact h
  | cons s ss ih =>
    have hrest := ih (h.step s)
    rw [contributions, List.reverse_cons, List.append_assoc]
    exact hrest

end Builder

/-- **What a builder has accumulated** after any steps, whatever executors answered: its statement
is made of the contributions since the last restart, in call order; a continuation is pending
exactly if the last contribution that matters was a union or the beginning of a view; and its type
is that of the text written last since the statement was given up. -/
theorem accumulation_law {m : Type → Type} {ρ : Type} [Monad m] [LawfulMonad m] (config : Config)
    (steps : List (Step m ρ)) :
    let start := Builder.ofConfig config
    let past := (start.contributions steps).reverse
    (List.map Outcome.builder <$> start.steps steps =
        (fun _ => (List.range steps.length).map fun i => start.afterAll (steps.take (i + 1))) <$>
          start.steps steps) ∧
      (start.afterAll steps).sql = accumulated past ∧
      (start.afterAll steps).isContinuing = pending past ∧
      (start.afterAll steps).statementType = lastType past := by
  intro start past
  have hshows : (start.afterAll steps).Shows past := by
    have h := (Builder.shows_ofConfig config).steps steps
    rw [List.append_nil] at h
    exact h
  exact ⟨Builder.builders_steps start steps, hshows.sql, hshows.continuing, hshows.type⟩

/-- A union of two statements, with a call between them that fails. -/
def continuedUnion : List (Step Id Unit) :=
  [.call (.insert false "logs" (.scalar (.int 1)) []),
    .call (.select false [.plain "users"] [] {}),
    .call (.union (.flag (some true))),
    .call (.drop "users" "tree"),
    .call (.appendRaw "/* rest */ "),
    .call (.select false [.plain "roles"] [] {})]

/-- The insertion is gone and the failed call does not show. -/
theorem accumulation_law_of_continued_union :
    ((Builder.ofConfig {}).afterAll continuedUnion).sql =
        accumulated ((Builder.ofConfig {}).contributions continuedUnion).reverse ∧
      accumulated ((Builder.ofConfig {}).contributions continuedUnion).reverse =
        raw "SELECT * FROM users UNION ALL /* rest */ SELECT * FROM roles" ∧
      ((Builder.ofConfig {}).afterAll continuedUnion).isContinuing = false ∧
      ((Builder.ofConfig {}).afterAll continuedUnion).statementType = some .select := by
  obtain ⟨-, hsql, hcontinuing, htype⟩ := accumulation_law {} continuedUnion
  refine ⟨hsql, by decide, ?_, ?_⟩
  · rw [hcontinuing]
    decide
  · rw [htype]
    decide

end BoundSql
