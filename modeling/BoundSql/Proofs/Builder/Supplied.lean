import BoundSql.Builder.History

/-!
# What callers supply

Every descriptor that a caller hands to a builder holds texts that are written as they are, and
statements of other builders that are embedded. For each kind of descriptor the two lists are
collected here, in the order in which a statement mentions them. Values, join types, connectors,
union modes and kinds of objects are no such texts: they are bound or read, never copied.
-/

namespace BoundSql

/-! ### Values and predicates -/

namespace Value

mutual

/-- The statements embedded in a value. -/
def statements : Value → List Fragment
  | .scalar _ | .placeholder => []
  | .list items => listStatements items
  | .statement sub => [sub]

/-- The statements embedded in the items of a list. -/
def listStatements : List Value → List Fragment
  | [] => []
  | v :: vs => statements v ++ listStatements vs

end

end Value

/-- The text of an operator that is not in the list of known ones. -/
def Operator.texts : Operator → List String
  | .other text => [text]
  | _ => []

namespace Predicate

/-- The texts that a predicate writes as they are. -/
def texts (p : Predicate) : List String := p.expression :: p.operator.texts

/-- The statements embedded in a predicate. -/
def statements (p : Predicate) : List Fragment := p.value.statements

end Predicate

/-! ### Tables, assignments and keyword clauses -/

namespace TableRef

/-- The texts that a table entry writes as they are. -/
def texts : TableRef → List String
  | .plain name => [name]
  | .aliased name label => [name, label]
  | .joined base _ on => base.texts ++ on.toList
  | .statement _ label => label.toList

/-- The statements embedded in a table entry. -/
def statements : TableRef → List Fragment
  | .plain _ | .aliased _ _ => []
  | .joined base _ _ => base.statements
  | .statement sub _ => [sub]

end TableRef

namespace SetClause

/-- The texts that assignments write as they are. -/
def texts : SetClause → List String
  | .pairs assignments => assignments.map Prod.fst
  | .raw text => [text]

/-- The statements embedded in assignments. -/
def statements : SetClause → List Fragment
  | .pairs assignments => assignments.flatMap fun a => a.2.statements
  | .raw _ => []

end SetClause

/-- The entries of all four clauses. -/
def KeywordClauses.texts (k : KeywordClauses) : List String :=
  k.groupBy ++ k.orderBy ++ k.limit ++ k.offset

theorem KeywordClauses.mem_texts {k : KeywordClauses} {keyword : Keyword} {s : String}
    (h : s ∈ k.entries keyword) : s ∈ k.texts := by
  cases keyword <;> simp_all [entries, texts]

/-! ### Calls -/

namespace Call

/-- The texts that a call supplies to be written as they are. -/
def texts : Call → List String
  | .autoQuoteValues _ | .append _ | .union _ | .reset => []
  | .filter predicates | .having predicates => predicates.flatMap Predicate.texts
  | .select _ tables columns keywords => tables.flatMap TableRef.texts ++ columns ++ keywords.texts
  | .insert _ table _ columns => table :: columns
  | .update tables assignments _ => tables.flatMap TableRef.texts ++ assignments.texts
  | .delete table _ | .truncate table => [table]
  | .appendRaw text => [text]
  | .createView name _ | .drop name _ => [name]

/-- The statements of other builders that a call embeds. -/
def statements : Call → List Fragment
  | .filter predicates | .having predicates => predicates.flatMap Predicate.statements
  | .select _ tables _ _ => tables.flatMap TableRef.statements
  | .insert _ _ values _ => values.statements
  | .update tables assignments _ => tables.flatMap TableRef.statements ++ assignments.statements
  | .append statement => [statement]
  | .autoQuoteValues _ | .delete _ _ | .truncate _ | .appendRaw _ | .createView _ _ | .drop _ _
  | .union _ | .reset => []

end Call

end BoundSql
