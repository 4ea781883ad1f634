import BoundSql.Table.Compile
import BoundSql.Fragment.Lemmas
import BoundSql.Proofs.Fragment.Symbols

/-!
# Joins that do not take effect

A join that does not take effect is written as its base. The entry and its base are therefore the
same text, but what stands before the entry is chosen by looking at the outermost join alone: it is
a comma, also when the base is a join that does take effect and would follow after a blank.

    compileTables_downgraded_iff : nothing changes if the entry is replaced by its base, exactly
                                   if it is the first one or its base takes no effect either
-/

namespace BoundSql

open Fragment (raw symbols_append symbols_raw)

namespace TableRef

variable {base : TableRef} {joinType on : Option String}

theorem joinClause?_eq_none_of_effectiveJoin {t : TableRef} (h : t.effectiveJoin = none) :
    t.joinClause? = none := Option.map_eq_none_iff.mp h

/-- A join that does not take effect is written as its base. -/
theorem compile_downgraded (h : (joined base joinType on).effectiveJoin = none) :
    (joined base joinType on).compile.value = base.compile.value := by
  rw [compile, joinClause?_eq_none_of_effectiveJoin h]
  rfl

theorem separator_of_effectiveJoin_eq_none {t : TableRef} (h : t.effectiveJoin = none) :
    t.separator = ", " := by
  rw [separator, h]
  rfl

theorem separator_of_effectiveJoin_eq_some {t : TableRef} {j : JoinType}
    (h : t.effectiveJoin = some j) : t.separator = " " := by
  rw [separator, h]
  rfl

end TableRef

/-! ### Lists of entries -/

/-- An entry that follows another one, with what stands before it. -/
theorem value_compileFollowing_cons (t : TableRef) (ts : Tables) :
    (compileFollowing (t :: ts)).value =
      raw t.separator ++ (t.compile.value ++ (compileFollowing ts).value) :=
  Fragment.append_assoc _ _ _

theorem value_compileTables_cons (t : TableRef) (ts : Tables) :
    (compileTables (t :: ts)).value = t.compile.value ++ (compileFollowing ts).value := rfl

theorem value_compileFollowing_append (ts us : Tables) :
    (compileFollowing (ts ++ us)).value =
      (compileFollowing ts).value ++ (compileFollowing us).value := by
  induction ts with
  | nil => exact (Fragment.empty_append _).symm
  | cons t ts ih =>
    rw [List.cons_append, value_compileFollowing_cons, value_compileFollowing_cons, ih]
    simp only [Fragment.append_assoc]

/-- Entries after at least one other entry are compiled as following ones. -/
theorem value_compileTables_append {ts : Tables} (hts : ts ≠ []) (us : Tables) :
    (compileTables (ts ++ us)).value = (compileTables ts).value ++ (compileFollowing us).value := by
  cases ts with
  | nil => exact absurd rfl hts
  | cons t ts =>
    rw [List.cons_append, value_compileTables_cons, value_compileTables_cons,
      value_compileFollowing_append, Fragment.append_assoc]

/-- Fragments around two texts of different length are different. -/
theorem append_raw_append_ne {s t : String} (h : s.length ≠ t.length) (a b : Fragment) :
    a ++ (raw s ++ b) ≠ a ++ (raw t ++ b) := by
  intro heq
  have hsymbols := congrArg (fun f : Fragment => f.symbols.length) heq
  simp only [symbols_append, symbols_raw, Symbol.ofText, List.length_append, List.length_map,
    String.length_toList] at hsymbols
  omega

/-- **When a join that does not take effect is transparent.** Replacing it by its base leaves the
compiled list as it is exactly if nothing stands before it, or if its base is no join that takes
effect. Otherwise a comma stands in front of a join. -/
theorem compileTables_downgraded_iff (before after : Tables) {base : TableRef}
    {joinType on : Option String} (h : (TableRef.joined base joinType on).effectiveJoin = none) :
    (compileTables (before ++ .joined base joinType on :: after)).value =
        (compileTables (before ++ base :: after)).value ↔
      before = [] ∨ base.effectiveJoin = none := by
  have hentry := TableRef.compile_downgraded h
  have hcomma := TableRef.separator_of_effectiveJoin_eq_none h
  by_cases hbefore : before = []
  · -- the first entry has no separator
    subst hbefore
    rw [List.nil_append, List.nil_append, value_compileTables_cons, value_compileTables_cons,
      hentry]
    exact ⟨fun _ => .inl rfl, fun _ => rfl⟩
  · rw [value_compileTables_append hbefore, value_compileTables_append hbefore,
      value_compileFollowing_cons, value_compileFollowing_cons, hentry, hcomma]
    cases hbase : base.effectiveJoin with
    | none =>
      rw [TableRef.separator_of_effectiveJoin_eq_none hbase]
      exact ⟨fun _ => .inr rfl, fun _ => rfl⟩
    | some j =>
      rw [TableRef.separator_of_effectiveJoin_eq_some hbase]
      constructor
      · intro heq
        exact absurd heq (append_raw_append_ne (by decide) _ _)
      · rintro (hnil | hnone)
        · exact absurd hnil hbefore
        · cases hnone

/-- A join of an unknown type around a table: after another entry, it is the table itself. -/
theorem compileTables_downgraded_iff_of_plain_base :
    ((TableRef.plain "roles").join "SIDEWAYS" "a = b").effectiveJoin = none ∧
      ((compileTables ([.plain "users"] ++ (TableRef.plain "roles").join "SIDEWAYS" "a = b" ::
          [.plain "teams"])).value =
        (compileTables ([.plain "users"] ++ .plain "roles" :: [.plain "teams"])).value ↔
          ([.plain "users"] : Tables) = [] ∨ (TableRef.plain "roles").effectiveJoin = none) :=
  ⟨by decide, compileTables_downgraded_iff [.plain "users"] [.plain "teams"] (by decide)⟩

/-- A join of an unknown type around a left join: a comma stands in front of the left join. -/
theorem compileTables_downgraded_ne_of_join_base :
    (((TableRef.plain "roles").leftJoin "a = b").join "SIDEWAYS" "c = d").effectiveJoin = none ∧
      (compileTables [.plain "users",
          ((TableRef.plain "roles").leftJoin "a = b").join "SIDEWAYS" "c = d"]).value =
        raw "users, LEFT JOIN roles ON a = b" ∧
      (compileTables [.plain "users",
          ((TableRef.plain "roles").leftJoin "a = b").join "SIDEWAYS" "c = d"]).value ≠
        (compileTables [.plain "users", (TableRef.plain "roles").leftJoin "a = b"]).value := by
  refine ⟨by decide, by decide, ?_⟩
  have h : (compileTables [.plain "users", (TableRef.plain "roles").leftJoin "a = b"]).value =
      raw "users LEFT JOIN roles ON a = b" := by decide
  rw [h]
  decide

end BoundSql
