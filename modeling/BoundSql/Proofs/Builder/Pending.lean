import BoundSql.Proofs.Builder.Frame
import BoundSql.Proofs.Builder.Refusal

/-!
# What becomes of pending predicates

A builder holds two lists of predicates that wait for a statement, one for each clause. A step
installs a new list, takes the list as a clause of the statement that it writes, discards it, or
keeps it waiting.

    pending_predicates_used_once : the clause of a statement is compiled from the list that was
                                   installed last before it, if every step in between kept that
                                   list; otherwise the statement has no such clause

So a list is written at most once, by the first step that does not keep it.
-/

namespace BoundSql

open Fragment (raw)

/-! ### Handling of a list -/

/-- What a step does to the list that waits for a clause. -/
inductive Handling where
  /-- It is replaced. -/
  | install (predicates : List Predicate)
  /-- It becomes the clause of the statement that is written, and waits no longer. -/
  | take
  /-- It is given up. -/
  | discard
  | keep

/-- What waits after a step, if `pending` was waiting before. -/
def Handling.apply (pending : List Predicate) : Handling → List Predicate
  | .install predicates => predicates
  | .take | .discard => []
  | .keep => pending

/-- What a call does to the list that waits for a clause, if it succeeds. -/
def Call.handling (k : ClauseKeyword) (c : Call) : Handling :=
  if c.takes k then .take
  else match k, c with
    | .rows, .filter predicates | .groups, .having predicates => .install predicates
    | _, .truncate _ | _, .reset => .discard
    | _, _ => .keep

theorem Call.handling_eq_take_iff {k : ClauseKeyword} {c : Call} :
    c.handling k = .take ↔ c.takes k = true := by
  unfold handling
  split
  · simp_all
  · split <;> simp_all

/-- What a step does to it, unless it is refused. -/
def Step.handling {m : Type → Type} {ρ : Type} (k : ClauseKeyword) : Step m ρ → Handling
  | .call c => c.handling k
  | .fetchAll _ | .execute _ => .discard

namespace Builder

variable {m : Type → Type} {ρ : Type} {b : Builder}

/-- What a step does to the list that waits for a clause; a refused step keeps it. -/
def handling (b : Builder) (k : ClauseKeyword) (s : Step m ρ) : Handling :=
  if b.accepts s then s.handling k else .keep

/-- What the steps of a run do to the list, in call order. -/
def handlings (b : Builder) (k : ClauseKeyword) : List (Step m ρ) → List Handling
  | [] => []
  | s :: ss => b.handling k s :: (b.after s).handlings k ss

theorem pending_call {c : Call} (hok : (b.call c).result = .ok ()) (k : ClauseKeyword) :
    (b.call c).builder.pending k = (c.handling k).apply (b.pending k) := by
  cases c with
  | select distinct tables columns keywords =>
    obtain ⟨tail, htail⟩ := exists_tail_of_select hok
    rw [call, select, htail]
    cases k <;> rfl
  | update tables assignments limit =>
    obtain ⟨tail, htail⟩ := exists_tail_of_update hok
    rw [call, update, htail]
    cases k <;> rfl
  | delete table limit =>
    obtain ⟨tail, htail⟩ := exists_tail_of_delete hok
    rw [call, delete, htail]
    cases k <;> rfl
  | drop name kind =>
    rw [call, drop]
    cases DropKind.parse kind <;> cases k <;> rfl
  | union choice =>
    rw [call, union]
    cases choice.resolve <;> cases k <;> rfl
  | autoQuoteValues _ | filter _ | having _ | insert _ _ _ _ | truncate _ | appendRaw _ | append _
  | createView _ _ | reset => cases k <;> rfl

theorem pending_after (b : Builder) (k : ClauseKeyword) (s : Step m ρ) :
    (b.after s).pending k = (b.handling k s).apply (b.pending k) := by
  unfold handling
  split
  · next h =>
    cases s with
    | call c =>
      obtain ⟨_, hok⟩ := exists_ok_of_isOk h
      exact pending_call hok k
    | fetchAll executor | execute executor =>
      obtain ⟨statement, hok⟩ := exists_ok_of_isOk h
      rw [after, handedOver, hok]
      cases k <;> rfl
  · next h =>
    rw [after_of_refused (Bool.not_eq_true _ ▸ h)]
    rfl

theorem handlings_append (b : Builder) (k : ClauseKeyword) (ss ts : List (Step m ρ)) :
    b.handlings k (ss ++ ts) = b.handlings k ss ++ (b.afterAll ss).handlings k ts := by
  induction ss generalizing b with
  | nil => rfl
  | cons s ss ih =>
    rw [List.cons_append, handlings, handlings, ih]
    rfl

theorem length_handlings (b : Builder) (k : ClauseKeyword) (ss : List (Step m ρ)) :
    (b.handlings k ss).length = ss.length := by
  induction ss generalizing b with
  | nil => rfl
  | cons s ss ih => rw [handlings, List.length_cons, List.length_cons, ih]

end Builder

/-! ### The list that waits -/

namespace Handling

variable {hs : List Handling} {h : Handling} {i j : Nat} {ps : List Predicate}

/-- The list that was installed at position `i` waits in the end: it was kept from there on. -/
structure Waits (hs : List Handling) (i : Nat) (ps : List Predicate) : Prop where
  installed : hs[i]? = some (.install ps)
  kept : ∀ n, i < n → n < hs.length → hs[n]? = some .keep

/-- The list that was installed at position `i` is the one that is taken at position `j`: it was
kept in between. -/
structure Serves (hs : List Handling) (i j : Nat) (ps : List Predicate) : Prop where
  lt : i < j
  installed : hs[i]? = some (.install ps)
  kept : ∀ n, i < n → n < j → hs[n]? = some .keep
  taken : hs[j]? = some .take

theorem Waits.lt_length (h : Waits hs i ps) : i < hs.length := by
  obtain ⟨hi, -⟩ := List.getElem?_eq_some_iff.mp h.installed
  exact hi

theorem not_waits_nil : ¬ Waits [] i ps := fun h => by cases h.installed

/-- A list waits after one more step if that step installed it, or kept it waiting. -/
theorem waits_concat_iff :
    Waits (hs ++ [h]) i ps ↔ (h = .install ps ∧ i = hs.length) ∨ (h = .keep ∧ Waits hs i ps) := by
  constructor
  · intro hw
    have hi : i < hs.length + 1 := by simpa using hw.lt_length
    rcases Nat.lt_succ_iff_lt_or_eq.mp hi with hlt | heq
    · right
      have hlast := hw.kept hs.length hlt (by simp)
      rw [List.getElem?_concat_length] at hlast
      refine ⟨Option.some.inj hlast, ?_, fun n hin hn => ?_⟩
      · rw [← List.getElem?_append_left hlt]
        exact hw.installed
      · rw [← List.getElem?_append_left hn]
        exact hw.kept n hin (by simp; omega)
    · left
      have hlast := hw.installed
      rw [heq, List.getElem?_concat_length] at hlast
      exact ⟨Option.some.inj hlast, heq⟩
  · rintro (⟨rfl, rfl⟩ | ⟨rfl, hw⟩)
    · refine ⟨List.getElem?_concat_length, fun n hin hn => ?_⟩
      simp at hn
      omega
    · refine ⟨?_, fun n hin hn => ?_⟩
      · rw [List.getElem?_append_left hw.lt_length]
        exact hw.installed
      · rcases Nat.lt_succ_iff_lt_or_eq.mp (by simpa using hn) with hlt | heq
        · rw [List.getElem?_append_left hlt]
          exact hw.kept n hin hlt
        · rw [heq, List.getElem?_concat_length]

/-- What is taken next is what waits. -/
theorem serves_length_iff {rest : List Handling} :
    Serves (hs ++ h :: rest) i hs.length ps ↔ h = .take ∧ Waits hs i ps := by
  have hmid : (hs ++ h :: rest)[hs.length]? = some h := by simp
  have hleft : ∀ {n}, n < hs.length → (hs ++ h :: rest)[n]? = hs[n]? :=
    fun hn => List.getElem?_append_left hn
  constructor
  · intro hs
    refine ⟨Option.some.inj (hmid.symm.trans hs.taken), ?_, fun n hin hn => ?_⟩
    · rw [← hleft hs.lt]
      exact hs.installed
    · rw [← hleft hn]
      exact hs.kept n hin hn
  · rintro ⟨rfl, hw⟩
    refine ⟨hw.lt_length, ?_, fun n hin hn => ?_, hmid⟩
    · rw [hleft hw.lt_length]
      exact hw.installed
    · rw [hleft hn]
      exact hw.kept n hin hn

/-- A list is taken at most once. -/
theorem Serves.eq {j' : Nat} {ps' : List Predicate} (h : Serves hs i j ps)
    (h' : Serves hs i j' ps') : j = j' := by
  -- the earlier position is one at which the list would have to be kept until the later one
  rcases Nat.lt_trichotomy j j' with hlt | heq | hlt
  · have hkept := h'.kept j h.lt hlt
    rw [h.taken] at hkept
    cases hkept
  · exact heq
  · have hkept := h.kept j' h'.lt hlt
    rw [h'.taken] at hkept
    cases hkept

end Handling

open Handling (Waits Serves waits_concat_iff serves_length_iff)

namespace Builder

variable {m : Type → Type} {ρ : Type} {b c : Builder} {k : ClauseKeyword} {hs : List Handling}

/-- The builder holds the list that waits, or the empty list if none does. -/
structure Holds (b : Builder) (k : ClauseKeyword) (hs : List Handling) : Prop where
  waiting : ∀ i ps, Waits hs i ps → b.pending k = ps
  idle : (∀ i ps, ¬ Waits hs i ps) → b.pending k = []

theorem holds_ofConfig (config : Config) (k : ClauseKeyword) : (ofConfig config).Holds k [] := by
  refine ⟨fun i ps hw => absurd hw Handling.not_waits_nil, fun _ => ?_⟩
  cases k <;> rfl

theorem Holds.step {h : Handling} (hb : b.Holds k hs) (hc : c.pending k = h.apply (b.pending k)) :
    c.Holds k (hs ++ [h]) := by
  refine ⟨fun i ps hw => ?_, fun hno => ?_⟩
  · rw [hc]
    rcases waits_concat_iff.mp hw with ⟨rfl, -⟩ | ⟨rfl, hwaits⟩
    · rfl
    · exact hb.waiting i ps hwaits
  · rw [hc]
    cases h with
    | install ps => exact absurd (waits_concat_iff.mpr (.inl ⟨rfl, rfl⟩)) (hno hs.length ps)
    | take | discard => rfl
    | keep => exact hb.idle fun i ps hw => hno i ps (waits_concat_iff.mpr (.inr ⟨rfl, hw⟩))

/-- A builder goes on holding the list that waits, whatever steps are taken. -/
theorem Holds.steps (hb : b.Holds k hs) (steps : List (Step m ρ)) :
    (b.afterAll steps).Holds k (hs ++ b.handlings k steps) := by
  induction steps generalizing b hs with
  | nil =>
    rw [handlings, List.append_nil]
    exact hb
  | cons s ss ih =>
    have hrest := ih (hb.step (pending_after b k s))
    rw [List.append_assoc] at hrest
    exact hrest

/-- At position `n` of a run, the call contributes its frame around its clauses: the clause of the
list that serves it, and no clause where no list does. -/
def ClausesServed (b : Builder) (call : Call) (hs : ClauseKeyword → List Handling) (n : Nat) :
    Prop :=
  ∃ clause : ClauseKeyword → Fragment,
    (b.contributionOf call).text = (call.frame b.config).around clause ∧
      ∀ k,
        (∀ i ps, Serves (hs k) i n ps →
          compileClause k b.config.autoQuoteValues ps = .ok (clause k)) ∧
        ((∀ i ps, ¬ Serves (hs k) i n ps) → clause k = .empty)

theorem clausesServed_of_ok {call : Call} {before after : ClauseKeyword → List Handling} {n : Nat}
    (hb : ∀ k, b.Holds k (before k)) (hlength : ∀ k, (before k).length = n)
    (hok : (b.call call).result = .ok ()) :
    b.ClausesServed call (fun k => before k ++ call.handling k :: after k) n := by
  obtain ⟨clause, hclause, htext⟩ := framed_call hok
  refine ⟨clause, htext, fun k => ?_⟩
  rw [← hlength k]
  refine ⟨fun i ps hserves => ?_, fun hno => ?_⟩
  · obtain ⟨htake, hwaits⟩ := serves_length_iff.mp hserves
    rw [← (hb k).waiting i ps hwaits]
    exact hclause.taken k (Call.handling_eq_take_iff.mp htake)
  · cases htakes : call.takes k with
    | false => exact hclause.absent k htakes
    | true =>
      -- the call takes the list, but no list waits
      have hidle : b.pending k = [] := (hb k).idle fun i ps hwaits =>
        hno i ps (serves_length_iff.mpr ⟨Call.handling_eq_take_iff.mpr htakes, hwaits⟩)
      have hclause := hclause.taken k htakes
      rw [hidle] at hclause
      exact (Except.ok.inj hclause).symm

end Builder

/-- **Pending predicates are used exactly once.** In every run, whatever executors answer, a call
that succeeds writes the clauses of the lists that serve it and no other clause. A list serves one
call at most: the first step that does not keep it. At any time the list that waits is the one that
was installed last and kept since then. -/
theorem pending_predicates_used_once {m : Type → Type} {ρ : Type} [Monad m] [LawfulMonad m]
    (config : Config) (steps : List (Step m ρ)) :
    let start := Builder.ofConfig config
    (List.map Outcome.builder <$> start.steps steps =
        (fun _ => (List.range steps.length).map fun i => start.afterAll (steps.take (i + 1))) <$>
          start.steps steps) ∧
      (start.afterAll steps).sql =
        Contribution.accumulated (start.contributions steps).reverse ∧
      (∀ before c after, steps = before ++ .call c :: after →
        ((start.afterAll before).call c).result = .ok () →
        (start.afterAll before).ClausesServed c (start.handlings · steps) before.length) ∧
      (∀ k i j j' ps ps', Serves (start.handlings k steps) i j ps →
        Serves (start.handlings k steps) i j' ps' → j = j') ∧
      ∀ k, (start.afterAll steps).Holds k (start.handlings k steps) := by
  intro start
  have hholds (k : ClauseKeyword) (ss : List (Step m ρ)) :
      (start.afterAll ss).Holds k (start.handlings k ss) :=
    (Builder.holds_ofConfig config k).steps ss
  have hshows := (Builder.shows_ofConfig config).steps steps
  rw [List.append_nil] at hshows
  refine ⟨Builder.builders_steps start steps, hshows.sql, ?_,
    fun k i j j' ps ps' h h' => h.eq h', fun k => hholds k steps⟩
  rintro before c after rfl hok
  have haccepts : (start.afterAll before).accepts (.call c : Step m ρ) = true := by
    rw [Builder.accepts, hok]
    rfl
  have hhandlings (k : ClauseKeyword) : start.handlings k (before ++ .call c :: after) =
      start.handlings k before ++ c.handling k ::
        ((start.afterAll before).after (.call c : Step m ρ)).handlings k after := by
    rw [Builder.handlings_append, Builder.handlings, Builder.handling, if_pos haccepts]
    rfl
  simp only [hhandlings]
  exact Builder.clausesServed_of_ok (fun k => hholds k before)
    (fun k => Builder.length_handlings start k before) hok

/-- A list for each clause, an insertion with a placeholder that cannot be handed over, and two
statements that take one list each. -/
def patientPredicates : List (Step Id Unit) :=
  [.call (.filter [.ofValue "id" (.scalar (.int 7))]),
    .call (.having [.ofValue "n" (.scalar (.int 1))]),
    .call (.insert false "logs" .placeholder []),
    .fetchAll numberedDatabase,
    .call (.update [.plain "users"] (.raw "age = 9") none),
    .call (.select false [.plain "users"] [] {})]

/-- The `WHERE` clause is that of the update, and the selection is left with `HAVING`. -/
theorem pending_predicates_used_once_of_patient_predicates :
    let start := Builder.ofConfig {}
    Serves (start.handlings .rows patientPredicates) 0 4 [.ofValue "id" (.scalar (.int 7))] ∧
      Serves (start.handlings .groups patientPredicates) 1 5 [.ofValue "n" (.scalar (.int 1))] ∧
      (∃ clause, ((start.afterAll (patientPredicates.take 5)).contributionOf
            (.select false [.plain "users"] [] {})).text =
          ((Call.select false [.plain "users"] [] {}).frame {}).around clause ∧
        clause .rows = .empty ∧
        compileClause .groups true [.ofValue "n" (.scalar (.int 1))] = .ok (clause .groups)) ∧
      (start.afterAll patientPredicates).text = "SELECT * FROM users HAVING n = 1" := by
  intro start
  have hrows : Serves (start.handlings .rows patientPredicates) 0 4
      [.ofValue "id" (.scalar (.int 7))] := by
    refine ⟨by decide, rfl, fun n h h' => ?_, rfl⟩
    have hn : n = 1 ∨ n = 2 ∨ n = 3 := by omega
    rcases hn with rfl | rfl | rfl <;> rfl
  have hgroups : Serves (start.handlings .groups patientPredicates) 1 5
      [.ofValue "n" (.scalar (.int 1))] := by
    refine ⟨by decide, rfl, fun n h h' => ?_, rfl⟩
    have hn : n = 2 ∨ n = 3 ∨ n = 4 := by omega
    rcases hn with rfl | rfl | rfl <;> rfl
  obtain ⟨-, -, hcalls, honce, -⟩ := pending_predicates_used_once {} patientPredicates
  have hnone : ∀ i ps, ¬ Serves (start.handlings .rows patientPredicates) i 5 ps := by
    intro i ps h
    have hi : i = 0 ∨ i = 1 ∨ i = 2 ∨ i = 3 ∨ i = 4 := by
      have := h.lt
      omega
    rcases hi with rfl | rfl | rfl | rfl | rfl
    · exact absurd (honce .rows 0 4 5 _ _ hrows h) (by decide)
    all_goals cases h.installed
  obtain ⟨clause, htext, hclause⟩ := hcalls (patientPredicates.take 5)
    (.select false [.plain "users"] [] {}) [] rfl rfl
  exact ⟨hrows, hgroups, ⟨clause, htext, (hclause .rows).2 hnone, (hclause .groups).1 1 _ hgroups⟩,
    by decide⟩

end BoundSql
