/-
**Filters that grow.**

The filter of a WHERE or HAVING clause grows by one condition at a time. A condition added with
the connective in use joins its chain; a condition added with the other one takes all that was
there before as its first operand.
-/

import WithClause.Condition

namespace WithClause

/-- A condition, or a chain of conditions with one connective. -/
inductive Filter where
  | single (condition : String)
  /-- A filter and further conditions, all with one connective. -/
  | chain (connective : Connective) (first : Filter) (rest : List String)
deriving DecidableEq

namespace Filter

/-- The filter after a condition is added with a connective. -/
def append (filter : Option Filter) (connective : Connective) (condition : String) :
    Filter :=
  match filter with
  | none => chain connective (single condition) []
  | some (single present) => chain connective (single present) [condition]
  | some (chain current first rest) =>
    if current = connective then chain current first (rest ++ [condition])
    else chain connective (chain current first rest) [condition]

def sql : Filter → String
  | single condition => condition
  | chain connective first rest => connective.connect (first.sql :: rest)

end Filter

end WithClause
