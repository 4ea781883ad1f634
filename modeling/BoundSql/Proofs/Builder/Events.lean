import BoundSql.Proofs.Builder.Requests
import BoundSql.Proofs.Table.Downgrade

/-!
# What is reported

Events are reported in the middle of the work: while tables are compiled, before predicates are
dropped, after a statement was added to what was there, before an executor answers. Here they are
compared with what can be seen of a step from outside, its arguments, its result, the builder before
and after it, and the request that reaches an executor.

    events_compileTables : a table list reports its joins that take no effect, one by one
    reports_call         : a call reports these joins, what it drops, and what it has written
    events_step          : a hand-over reports what its executor is asked
    executed?_runEvents  : the hand-overs that a run reports are those that took place
-/

namespace BoundSql

/-! ### Joins that take no effect -/

namespace TableRef

/-- The entry, its base, the base of this base, and so on. -/
def layers : TableRef → List TableRef
  | .joined base joinType on => .joined base joinType on :: base.layers
  | t => [t]

/-- The event for an entry that is meant as a join and takes no effect as one. -/
def downgrade? (t : TableRef) : Option Event :=
  match t with
  | .joined base _ _ => if t.effectiveJoin.isSome then none else some (.joinDowngraded base)
  | _ => none

/-- The events for all joins that take no effect, the outermost one first. -/
def downgrades (t : TableRef) : List Event := t.layers.filterMap downgrade?

variable {base : TableRef} {joinType on : Option String}

theorem downgrades_of_effectiveJoin_eq_none
    (h : (joined base joinType on).effectiveJoin = none) :
    (joined base joinType on).downgrades = .joinDowngraded base :: base.downgrades := by
  have hevent : (joined base joinType on).downgrade? = some (.joinDowngraded base) := by
    simp only [downgrade?, h, Option.isSome_none, Bool.false_eq_true, if_false]
  rw [downgrades, layers, List.filterMap_cons_some hevent]
  rfl

theorem downgrades_of_effectiveJoin_eq_some {j : JoinType}
    (h : (joined base joinType on).effectiveJoin = some j) :
    (joined base joinType on).downgrades = base.downgrades := by
  have hevent : (joined base joinType on).downgrade? = none := by
    simp only [downgrade?, h, Option.isSome_some, if_true]
  rw [downgrades, layers, List.filterMap_cons_none hevent]
  rfl

theorem eq_joinDowngraded_of_mem_downgrades {t : TableRef} {e : Event} (h : e ∈ t.downgrades) :
    ∃ base, e = .joinDowngraded base := by
  obtain ⟨layer, -, hlayer⟩ := List.mem_filterMap.mp h
  cases layer with
  | joined base _ _ =>
    rw [downgrade?] at hlayer
    split at hlayer
    · cases hlayer
    · exact ⟨base, (Option.some.inj hlayer).symm⟩
  | plain _ | aliased _ _ | statement _ _ => cases hlayer

/-- An entry reports its joins that take no effect, whatever is around them. -/
theorem events_compile (t : TableRef) : t.compile.events = t.downgrades := by
  induction t with
  | plain name => rfl
  | aliased name label => rfl
  | statement sub label => cases label <;> rfl
  | joined base joinType on ih =>
    cases hjoin : (joined base joinType on).effectiveJoin with
    | none =>
      rw [downgrades_of_effectiveJoin_eq_none hjoin, compile,
        joinClause?_eq_none_of_effectiveJoin hjoin, ← ih]
      rfl
    | some j =>
      obtain ⟨clause, hclause, -⟩ := Option.map_eq_some_iff.mp hjoin
      rw [downgrades_of_effectiveJoin_eq_some hjoin, compile, hclause, ← ih]
      rfl

end TableRef

theorem events_compileFollowing (ts : Tables) :
    (compileFollowing ts).events = ts.flatMap TableRef.downgrades := by
  induction ts with
  | nil => rfl
  | cons t ts ih =>
    rw [List.flatMap_cons, ← ih, ← t.events_compile]
    rfl

/-- A table list reports what its entries report, from left to right. -/
theorem events_compileTables (ts : Tables) :
    (compileTables ts).events = ts.flatMap TableRef.downgrades := by
  cases ts with
  | nil => rfl
  | cons t ts =>
    rw [List.flatMap_cons, ← events_compileFollowing, ← t.events_compile]
    rfl

/-! ### Calls -/

namespace Call

/-- The tables that a call compiles. -/
def tables : Call → Tables
  | .select _ tables _ _ | .update tables _ _ => tables
  | _ => []

/-- The events for the joins of a call that take no effect. -/
def downgrades (c : Call) : List Event := c.tables.flatMap TableRef.downgrades

/-- The type of the statement that a call writes, or of the beginning of a view. -/
def writes? : Call → Option StatementType
  | .createView _ _ => some .raw
  | c => c.type?

end Call

namespace Builder

/-- The warning that predicates are dropped, with the lengths of the lists that wait. -/
def warnings (b : Builder) : Call → List Event
  | .truncate table =>
    if b.pendingWhere = [] ∧ b.pendingHaving = [] then []
    else [.predicatesDiscarded table b.pendingWhere.length b.pendingHaving.length]
  | _ => []

/-- What a call reports, in order: its joins that take no effect, the predicates that it drops, and
last the statement, with its type and the text and the number of bound scalars of all that is
accumulated then. Of these, a call that fails reports the joins alone. A call that writes no
statement reports nothing. -/
structure Reports (b : Builder) (c : Call) (o : Outcome Unit) : Prop where
  written : ∀ type, c.writes? = some type → o.result = .ok () →
    o.builder.statementType = some type ∧
      o.events = c.downgrades ++ b.warnings c ++
        [.compiled type o.builder.sql.bindCount o.builder.text]
  failed : ∀ e, o.result = .error e → o.events = c.downgrades
  silent : c.writes? = none → o.events = []

variable {b : Builder} {c : Call}

theorem Reports.of_silent (hwrites : c.writes? = none) (after : Builder) :
    b.Reports c (.silent after) where
  written := by
    intro type htype
    rw [hwrites] at htype
    cases htype
  failed := by
    rintro e ⟨⟩
  silent _ := rfl

/-- A call that fails has compiled its tables, if it has any. -/
theorem Reports.of_error {events : List Event} (e : SqlError)
    (htables : c.writes? = none → c.tables = []) (hevents : events = c.downgrades) :
    b.Reports c ⟨.error e, b, events⟩ where
  written := by
    rintro type - ⟨⟩
  failed _ _ := hevents
  silent hwrites := by
    rw [hevents, Call.downgrades, htables hwrites]
    rfl

/-- What is written is reported after everything else. -/
theorem Reports.of_commit {type : StatementType} {events : List Event}
    (hwrites : c.writes? = some type) (hevents : events = c.downgrades ++ b.warnings c)
    (cleared : Builder) (statement : Fragment) :
    b.Reports c (cleared.commit type statement events) where
  written := by
    intro type' htype _
    obtain rfl : type = type' := Option.some.inj (hwrites.symm.trans htype)
    subst hevents
    exact ⟨rfl, rfl⟩
  failed := by
    rintro e ⟨⟩
  silent hnone := by
    rw [hwrites] at hnone
    cases hnone

theorem reports_select (b : Builder) (distinct : Bool) (tables : Tables) (columns : Columns)
    (keywords : KeywordClauses) :
    b.Reports (.select distinct tables columns keywords)
      (b.select distinct tables columns keywords) := by
  have hevents := events_compileTables tables
  unfold select
  cases b.selectTail keywords with
  | error e => exact .of_error e (fun hnone => nomatch hnone) hevents
  | ok tail => exact .of_commit rfl (by rw [hevents]; exact (List.append_nil _).symm) _ _

theorem reports_update (b : Builder) (tables : Tables) (assignments : SetClause)
    (limit : Option Nat) :
    b.Reports (.update tables assignments limit) (b.update tables assignments limit) := by
  have hevents := events_compileTables tables
  unfold update
  cases b.changeTail limit with
  | error e => exact .of_error e (fun hnone => nomatch hnone) hevents
  | ok tail => exact .of_commit rfl (by rw [hevents]; exact (List.append_nil _).symm) _ _

theorem reports_delete (b : Builder) (table : String) (limit : Option Nat) :
    b.Reports (.delete table limit) (b.delete table limit) := by
  unfold delete
  cases b.changeTail limit with
  | error e => exact .of_error e (fun hnone => nomatch hnone) rfl
  | ok tail => exact .of_commit rfl rfl _ _

theorem reports_truncate (b : Builder) (table : String) :
    b.Reports (.truncate table) (b.truncate table) := by
  unfold truncate
  refine .of_commit rfl ?_ _ _
  simp [Call.downgrades, Call.tables, warnings]

/-- The beginning of a view is reported like a statement. -/
theorem reports_createView (b : Builder) (name : String) (replace : Bool) :
    b.Reports (.createView name replace) (b.createView name replace) := by
  unfold createView
  extract_lets statement written
  have h : b.Reports (.createView name replace) written := .of_commit rfl rfl b statement
  exact ⟨h.written, h.failed, h.silent⟩

theorem reports_drop (b : Builder) (name kind : String) :
    b.Reports (.drop name kind) (b.drop name kind) := by
  unfold drop
  cases DropKind.parse kind with
  | error e => exact .of_error e (fun hnone => nomatch hnone) rfl
  | ok _ => exact .of_commit rfl rfl _ _

theorem reports_union (b : Builder) (choice : UnionChoice) :
    b.Reports (.union choice) (b.union choice) := by
  unfold union
  cases choice.resolve with
  | error e => exact .of_error e (fun _ => rfl) rfl
  | ok mode => exact .of_silent rfl _

/-- Every call reports what it does. -/
theorem reports_call (b : Builder) (c : Call) : b.Reports c (b.call c) := by
  cases c with
  | select distinct tables columns keywords =>
    exact b.reports_select distinct tables columns keywords
  | update tables assignments limit => exact b.reports_update tables assignments limit
  | delete table limit => exact b.reports_delete table limit
  | truncate table => exact b.reports_truncate table
  | drop name kind =>
    -- unfolded by hand: the kinds are words, which are slow to compare
    rw [call]
    exact b.reports_drop name kind
  | union choice => exact b.reports_union choice
  | createView name replace => exact b.reports_createView name replace
  | insert ignore table values columns => exact .of_commit rfl rfl _ _
  | autoQuoteValues _ | filter _ | having _ | appendRaw _ | append _ | reset =>
    exact .of_silent rfl _

/-! ### Hand-overs -/

end Builder

/-- The event for a request, by the type of the statement that was written last. -/
def Request.event (type : Option StatementType) (r : Request) : Event :=
  .executing type r.statement.params.length r.statement.sql

/-- The number of parameters and the text of a request. -/
def Request.sent (r : Request) : Nat × String := (r.statement.params.length, r.statement.sql)

/-- What an event says about a hand-over, if it reports one. -/
def Event.executed? : Event → Option (Nat × String)
  | .executing _ paramCount sql => some (paramCount, sql)
  | _ => none

namespace Builder

variable {m : Type → Type} {ρ α : Type}

/-- The events of a call. A hand-over has none of its own. -/
def callEvents (b : Builder) : Step m ρ → List Event
  | .call c => (b.call c).events
  | .fetchAll _ | .execute _ => []

/-- The events of a step: those of a call, and one for what an executor is asked. -/
def stepEvents (b : Builder) (s : Step m ρ) : List Event :=
  b.callEvents s ++ (b.request? s).toList.map (Request.event b.statementType)

/-- The events of a run, step by step. -/
def runEvents (b : Builder) : List (Step m ρ) → List (List Event)
  | [] => []
  | s :: ss => b.stepEvents s :: (b.after s).runEvents ss

/-- No call reports a hand-over. -/
theorem executed?_call (b : Builder) (c : Call) :
    (b.call c).events.filterMap Event.executed? = [] := by
  have hdowngrades : c.downgrades.filterMap Event.executed? = [] := by
    rw [List.filterMap_eq_nil_iff]
    intro e he
    obtain ⟨t, -, ht⟩ := List.mem_flatMap.mp he
    obtain ⟨base, rfl⟩ := TableRef.eq_joinDowngraded_of_mem_downgrades ht
    rfl
  have hwarnings : (b.warnings c).filterMap Event.executed? = [] := by
    cases c with
    | truncate table =>
      rw [warnings]
      split <;> rfl
    | _ => rfl
  have h := b.reports_call c
  cases hwrites : c.writes? with
  | none => rw [h.silent hwrites, List.filterMap_nil]
  | some type =>
    cases hresult : (b.call c).result with
    | error e => rw [h.failed e hresult, hdowngrades]
    | ok _ =>
      rw [(h.written type hwrites hresult).2, List.filterMap_append, List.filterMap_append,
        hdowngrades, hwarnings]
      rfl

theorem executed?_stepEvents (b : Builder) (s : Step m ρ) :
    (b.stepEvents s).filterMap Event.executed? = (b.request? s).toList.map Request.sent := by
  rw [stepEvents, List.filterMap_append]
  cases s with
  | call c =>
    rw [callEvents, executed?_call]
    rfl
  | fetchAll _ | execute _ =>
    cases b.request? _ <;> rfl

/-- The hand-overs that a run reports are the requests, in order. -/
theorem executed?_runEvents (b : Builder) (steps : List (Step m ρ)) :
    (b.runEvents steps).flatten.filterMap Event.executed? =
      (b.requests steps).map Request.sent := by
  induction steps generalizing b with
  | nil => rfl
  | cons s ss ih =>
    rw [runEvents, List.flatten_cons, List.filterMap_append, executed?_stepEvents, ih, requests,
      List.map_append]

variable [Monad m] [LawfulMonad m]

theorem events_run (b : Builder) (style : PlaceholderStyle)
    (send : Rendered → m (Except SqlError α)) (request : Rendered → Request)
    (hrequest : ∀ statement, (request statement).statement = statement) :
    Outcome.events <$> b.run style send =
      (fun _ => ((b.statementFor style).toOption.map request).toList.map
        (Request.event b.statementType)) <$> b.run style send := by
  unfold run
  cases b.statementFor style with
  | error e => simp [Except.toOption]
  | ok statement => simp [Except.toOption, Request.event, hrequest]

theorem events_step (b : Builder) (s : Step m ρ) :
    Outcome.events <$> b.step s = (fun _ => b.stepEvents s) <$> b.step s := by
  cases s with
  | call c => simp [step, stepEvents, callEvents, request?, Outcome.map]
  | fetchAll executor =>
    have h := b.events_run executor.style executor.query .query fun _ => rfl
    simpa [step, stepEvents, callEvents, request?, Outcome.map, fetchAll] using h
  | execute executor =>
    have h := b.events_run executor.style executor.execute .execute fun _ => rfl
    simpa [step, stepEvents, callEvents, request?, Outcome.map, execute] using h

/-- What follows a step can rely on its events. -/
theorem step_bind_events {β : Type} (b : Builder) (s : Step m ρ) (next : List Event → m β) :
    (b.step s >>= fun o => next o.events) = b.step s >>= fun _ => next (b.stepEvents s) := by
  have h := congrArg (· >>= next) (b.events_step s)
  simpa only [bind_map_left] using h

theorem events_steps (b : Builder) (steps : List (Step m ρ)) :
    List.map Outcome.events <$> b.steps steps = (fun _ => b.runEvents steps) <$> b.steps steps := by
  induction steps generalizing b with
  | nil => simp [Builder.steps, runEvents]
  | cons s ss ih =>
    have hrest := fun events => congrArg (fun x => List.cons events <$> x) (ih (b.after s))
    simp only [Functor.map_map] at hrest
    simp only [Builder.steps, map_bind, map_pure, List.map_cons, runEvents]
    -- both runs go on from the builder after the step
    rw [step_bind_builder b s fun o c => do
        let outcomes ← c.steps ss
        pure (o.events :: outcomes.map Outcome.events),
      step_bind_builder b s fun _ c => do
        let _ ← c.steps ss
        pure (b.stepEvents s :: (b.after s).runEvents ss)]
    simp only [bind_pure_comp, hrest]
    exact b.step_bind_events s fun events =>
      (fun _ => events :: (b.after s).runEvents ss) <$> (b.after s).steps ss

/-- The events of a run are known from its requests, which are all that its logs hold. -/
theorem events_steps_logged (b : Builder) (steps : List (Step m ρ)) (log : List Request) :
    (fun p => (p.1.map Outcome.events, p.2)) <$> (b.steps (steps.map Step.logged)).run log =
      (fun _ => (b.runEvents steps, log ++ b.requests steps)) <$>
        (b.steps (steps.map Step.logged)).run log := by
  rw [run_steps_logged]
  have h := congrArg (fun x => (·, log ++ b.requests steps) <$> x) (b.events_steps steps)
  simpa only [Functor.map_map] using h

end Builder

/-- **Events tell what happened.** A call reports its joins that take no effect, then the predicates
that it drops, and then what it has written, unless it has failed (`Builder.Reports`). A hand-over
reports what its executor is asked, if it is asked. So the events of a run and the requests that
reach executors are both known from the builder, and the hand-overs among the events are the
requests, with their texts and their numbers of parameters, in order. -/
theorem events_tell_what_happened {m : Type → Type} {ρ : Type} [Monad m] [LawfulMonad m]
    (b : Builder) :
    (∀ c : Call, b.Reports c (b.call c)) ∧
      ∀ (steps : List (Step m ρ)) (log : List Request),
        (fun p => (p.1.map Outcome.events, p.2)) <$> (b.steps (steps.map Step.logged)).run log =
            (fun _ => (b.runEvents steps, log ++ b.requests steps)) <$>
              (b.steps (steps.map Step.logged)).run log ∧
          (b.runEvents steps).flatten.filterMap Event.executed? =
            (b.requests steps).map Request.sent :=
  ⟨b.reports_call, fun steps log => ⟨b.events_steps_logged steps log, b.executed?_runEvents steps⟩⟩

/-- A left join inside a join of an unknown type, around another one. -/
def sidewaysJoin : TableRef :=
  (((TableRef.plain "roles").join "CROSS" "a = b").leftJoin "c = d").join "SIDEWAYS" "e = f"

/-- A selection that completes a view is handed over; then a deletion is refused, and a truncation
drops the predicates instead. -/
def reportedSteps : List (Step Id Unit) :=
  [.call (.createView "v" false),
    .call (.filter [.ofValue "id" (.scalar (.int 1))]),
    .call (.select false [.plain "users", sidewaysJoin] [] {}),
    .fetchAll numberedDatabase,
    .call (.filter [.ofValue "id" (.scalar (.int 1)), (Predicate.isNull "id").withConnector "XOR"]),
    .call (.delete "logs" none),
    .call (.truncate "logs")]

/-- The events of these steps, whatever the database answers. -/
theorem events_tell_what_happened_of_reported_steps :
    let start := Builder.ofConfig {}
    let base := ((TableRef.plain "roles").join "CROSS" "a = b").leftJoin "c = d"
    let view := "CREATE VIEW v AS SELECT * FROM users, LEFT JOIN roles ON c = d WHERE id = "
    (start.call (.createView "v" false)).events = [.compiled .raw 0 "CREATE VIEW v AS "] ∧
      ((start.steps (reportedSteps.map Step.logged)).run []).1.map Outcome.events =
        [[.compiled .raw 0 "CREATE VIEW v AS "], [],
          [.joinDowngraded base, .joinDowngraded (.plain "roles"),
            .compiled .select 1 (view ++ "1")],
          [.executing (some .select) 1 (view ++ "$1")], [], [],
          [.predicatesDiscarded "logs" 2 0, .compiled .delete 0 "DELETE FROM logs"]] ∧
      ((start.steps (reportedSteps.map Step.logged)).run []).2.map Request.sent =
        [(1, view ++ "$1")] := by
  intro start base view
  obtain ⟨hcalls, hruns⟩ := events_tell_what_happened (m := Id) (ρ := Unit) start
  obtain ⟨hevents, hsent⟩ := hruns reportedSteps []
  have hview := ((hcalls (.createView "v" false)).written .raw rfl rfl).2
  obtain ⟨hrun, hlog⟩ := Prod.mk.inj hevents
  rw [hrun, hlog, List.nil_append, ← hsent, hview]
  decide

end BoundSql
