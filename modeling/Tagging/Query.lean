import Tagging.Cnf

/-!
# Queries

A clausal form can be handed to a store of documents as a query, to leave out documents early. A query
knows only words: what a lookup asks for becomes a word, wildcards may be left out, and that words
stand next to each other may be lost. So it says less than the clausal form it was made from, and the
documents that it selects still have to be searched.

A query is a conjunction of disjunctions of terms. Dialects differ in what they keep of a literal and
in how they write the result.
-/

namespace Tagging

/-- A condition on a document. -/
structure QueryTerm where
  /-- Whether the condition must not hold. -/
  negated : Bool
  /-- The words that are asked for. -/
  words : List String
deriving DecidableEq, Repr

/-- A conjunction of disjunctions of terms. -/
abbrev Query := List (List QueryTerm)

/-- How queries are made and written. -/
structure Dialect where
  /-- Stands between conditions that have to hold together. -/
  conjunction : String
  /-- Stands between conditions of which one has to hold. -/
  disjunction : String
  /-- Stands before a condition that must not hold. -/
  negation : String
  /-- Stands before the words of a term. -/
  opening : String
  /-- Stands behind the words of a term. -/
  closing : String
  /-- Whether wildcards are left out. -/
  dropsWildcards : Bool
  /-- Whether the words of a term are joined like conditions, instead of by blanks. -/
  splitsPhrases : Bool
deriving DecidableEq, Repr

namespace Dialect

/-- Words in quotes, joined by signs. -/
def plain : Dialect := ⟨" & ", " | ", "not", "\"", "\"", true, true⟩

/-- The query language of Lucene, in which phrases stay together. -/
def lucene : Dialect := ⟨" AND ", " OR ", "-", "+\"", "\"", true, false⟩

/-- The query language of PostgreSQL. -/
def postgres : Dialect := ⟨" & ", " | ", "!", "", "", true, true⟩

/-- The dialect of that name, if there is one. -/
def ofName? (name : String) : Option Dialect :=
  if name = "default" then some plain
  else if name = "lucene" then some lucene
  else if name = "postgres" then some postgres
  else none

/-! ## What is asked for -/

/-- The words that are kept of a literal. -/
def words (dialect : Dialect) (literal : Literal) : List String :=
  (literal.terms.filter fun term => !(dialect.dropsWildcards && term.isWildcard)).map Term.key

/-- The term of a literal, unless no words are left of it. -/
def term? (dialect : Dialect) (literal : Literal) : Option QueryTerm :=
  match dialect.words literal with
  | [] => none
  | words => some ⟨literal.negated, words⟩

/-- The query of a clausal form. Clauses without terms are left out. -/
def query (dialect : Dialect) (cnf : Cnf) : Query :=
  (cnf.clauses.map fun clause => clause.filterMap dialect.term?).filter (!·.isEmpty)

/-! ## How it is written -/

/-- What stands between the words of a term. -/
def separator (dialect : Dialect) : String :=
  if dialect.splitsPhrases then dialect.conjunction else " "

/-- A term as it is written. -/
def renderTerm (dialect : Dialect) (term : QueryTerm) : String :=
  let quoted := dialect.opening ++ dialect.separator.intercalate term.words ++ dialect.closing
  if term.negated then dialect.negation ++ "(" ++ quoted ++ ")" else quoted

/-- A disjunction as it is written. -/
def renderClause (dialect : Dialect) (terms : List QueryTerm) : String :=
  "(" ++ dialect.disjunction.intercalate (terms.map dialect.renderTerm) ++ ")"

/-- A query as it is written. -/
def render (dialect : Dialect) (query : Query) : String :=
  dialect.conjunction.intercalate (query.map dialect.renderClause)

/-- The query of a clausal form as it is written. -/
def write (dialect : Dialect) (cnf : Cnf) : String := dialect.render (dialect.query cnf)

end Dialect

end Tagging
