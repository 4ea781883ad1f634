import BoundSql.Trace

/-!
# Compiling a table list

A join that takes effect follows the entry before it after a blank; every other entry follows after
a comma. A join that does not take effect is written as its base, and that is reported, the
outermost one first.
-/

namespace BoundSql

open Fragment (raw)

/-- The text of a table entry, without a separator. -/
def TableRef.compile : TableRef → Traced Fragment
  | .plain name => .silent (raw name)
  | .aliased name label => .silent (raw name ++ raw " AS " ++ raw label)
  | .statement sub none => .silent sub.parenthesized
  | .statement sub (some label) => .silent (sub.parenthesized ++ raw " AS " ++ raw label)
  | .joined base joinType on =>
    match (joined base joinType on).joinClause? with
    | some (j, condition) =>
      base.compile.map fun table =>
        raw j.text ++ raw " " ++ table ++ raw " ON " ++ raw condition
    | none => base.compile.after (.joinDowngraded base)

/-- What stands between an entry and the one before it. -/
def TableRef.separator (t : TableRef) : String := if t.effectiveJoin.isSome then " " else ", "

def compileFollowing : Tables → Traced Fragment
  | [] => .silent .empty
  | t :: ts =>
    let entry := t.compile
    let rest := compileFollowing ts
    ⟨raw t.separator ++ entry.value ++ rest.value, entry.events ++ rest.events⟩

def compileTables : Tables → Traced Fragment
  | [] => .silent .empty
  | t :: ts =>
    let entry := t.compile
    let rest := compileFollowing ts
    ⟨entry.value ++ rest.value, entry.events ++ rest.events⟩

end BoundSql
