/-
**Texts of conditions.**

Comparisons and lists as SQL text, and conditions connected by AND or OR. Connecting drops the
empty conditions; a single one that is left stays bare, of several each is put in parentheses.
-/

namespace WithClause

/-- A word between conditions. -/
inductive Connective where
  | and
  | or
deriving DecidableEq

namespace Connective

/-- The word with a space on either side. -/
def word : Connective → String
  | and => " AND "
  | or => " OR "

/-- A text in parentheses. -/
def enclosed (text : String) : String := "(" ++ text ++ ")"

/-- Several conditions as one. -/
def connect (connective : Connective) (conditions : List String) : String :=
  match conditions.filter (· ≠ "") with
  | [single] => single
  | several => connective.word.intercalate (several.map enclosed)

end Connective

namespace Condition

/-- Two texts with an operator between them. -/
def compare (left operator right : String) : String := left ++ " " ++ operator ++ " " ++ right

def equal (left right : String) : String := compare left "=" right

def notEqual (left right : String) : String := compare left "<>" right

def less (left right : String) : String := compare left "<" right

def lessEqual (left right : String) : String := compare left "<=" right

def greater (left right : String) : String := compare left ">" right

def greaterEqual (left right : String) : String := compare left ">=" right

def like (left pattern : String) : String := compare left "LIKE" pattern

def notLike (left pattern : String) : String := compare left "NOT LIKE" pattern

def isNull (operand : String) : String := operand ++ " IS NULL"

def isNotNull (operand : String) : String := operand ++ " IS NOT NULL"

def inList (operand : String) (items : List String) : String :=
  operand ++ " IN (" ++ ", ".intercalate items ++ ")"

def notInList (operand : String) (items : List String) : String :=
  operand ++ " NOT IN (" ++ ", ".intercalate items ++ ")"

def all (conditions : List String) : String := Connective.and.connect conditions

def any (conditions : List String) : String := Connective.or.connect conditions

end Condition

end WithClause
