/-
**Keys of bindings.**

A value is bound under a name, kept exactly as given, or to a numbered place. Names come before
places; names are ordered by the codes of their characters, places by their numbers.
-/

namespace WithClause

/-- What a value is bound under. -/
inductive Key where
  /-- A named placeholder, with or without its colon. -/
  | named (name : String)
  /-- A place among the `?`, from zero. -/
  | positional (place : Nat)
deriving DecidableEq

namespace Key

def name? : Key → Option String
  | named name => some name
  | positional _ => none

/-- The name, or the number of the place. -/
def text : Key → String
  | named name => name
  | positional place => place.repr

/-- Whether the first key does not come after the second. -/
def le : Key → Key → Bool
  | named first, named second => !decide (second < first)
  | named _, positional _ => true
  | positional _, named _ => false
  | positional first, positional second => decide (first ≤ second)

/-- The keys in order; equal keys all stay. -/
def sort (keys : List Key) : List Key := keys.mergeSort le

/-- The different keys, each where it stands first. -/
def distinct (keys : List Key) : List Key := keys.eraseDups

end Key

end WithClause
