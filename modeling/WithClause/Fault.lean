/-
**What can go wrong.**

Each fault is a cause; its wording is in `message` alone.
-/

namespace WithClause

/-- Why a common table has no place in the dependency order. -/
inductive Obstacle where
  /-- A dependency never gets a place. -/
  | unmet (name dependency : String)
  /-- A table and its dependency depend on each other. -/
  | reciprocal (name dependency : String)
deriving DecidableEq

/-- Why a statement cannot be built or written. -/
inductive Fault where
  | nameTaken (name : String)
  | unknownName (name : String)
  | noOrder (cause : Obstacle)
  /-- Tables are attached to a content that sorts its rows. -/
  | unionOfSorted (name : String)
  /-- A table without a name was to be registered. -/
  | noName
  | definition (detail : String)
  | file (detail : String)
deriving DecidableEq

def Obstacle.message : Obstacle → String
  | unmet name dependency =>
    "CTE named \"" ++ name ++ "\" depends on \"" ++ dependency ++ "\" that could not be resolved"
  | reciprocal name dependency =>
    "CTE named \"" ++ name ++ "\" has a cyclical dependency with \"" ++ dependency ++ "\""

namespace Fault

def message : Fault → String
  | nameTaken name =>
    "CTE with alias \"" ++ name ++ "\" already exists in the query builder"
  | unknownName name => "CTE with alias \"" ++ name ++ "\" could not be found"
  | noOrder cause => cause.message
  | unionOfSorted name =>
    "CTE with alias \"" ++ name ++ "\" does not support ORDER BY with UNION statements"
  | noName => "CTE registered with the query builder does not have an assigned alias"
  | definition detail => "Configuration error: " ++ detail
  | file detail => "IO error: " ++ detail

def concernsOrder : Fault → Bool
  | noOrder _ => true
  | _ => false

end Fault

end WithClause
