/-
**The text of a filter, call by call.**

A filter is a tree of conditions, but its text can be written without the tree. A transcript has
two fields: the text so far and, as long as the text is a chain of operands in parentheses, the
connective of the chain. Each call on the filter is one step from transcript to transcript
(`Transcript.write`), and the transcript of the tree takes the same step (`transcript_step`). So the
text after a run is the one that the steps write (`text_foldl_step`).

Empty conditions are no operands, so that a tree with several conditions may have the transcript of
a single one (`Transcript.ofOperands`).
-/

import WithClause.Query.Call

namespace WithClause

/-- A call on a filter. -/
inductive Filter.Step where
  /-- A condition in the place of all that was there. -/
  | set (condition : String)
  | add (connective : Connective) (condition : String)

/-- What has to be known of a filter to go on writing its text. -/
structure Transcript where
  /-- The text, if there is a filter. -/
  text : Option String := none
  /-- The connective of a text that is a chain. -/
  connective : Option Connective := none

/-! ### Writing -/

namespace Transcript

open Connective (enclosed)

/-- The transcript after a condition is added. A condition with the connective of the chain goes on
with it; with another one, the text becomes the first operand of a new chain. -/
def add (connective : Connective) (condition : String) : Transcript → Transcript
  | ⟨none, _⟩ => ⟨some condition, none⟩
  | ⟨some text, current⟩ =>
    if text = "" then ⟨some condition, none⟩
    else if condition = "" then ⟨some text, if current = some connective then current else none⟩
    else if current = some connective then
      ⟨some (text ++ connective.word ++ enclosed condition), current⟩
    else ⟨some (enclosed text ++ connective.word ++ enclosed condition), some connective⟩

def write (transcript : Transcript) : Filter.Step → Transcript
  | .set condition => ⟨some condition, none⟩
  | .add connective condition => transcript.add connective condition

/-- The transcript that steps write. -/
def ofSteps (steps : List Filter.Step) : Transcript := steps.foldl write {}

theorem ofSteps_concat (steps : List Filter.Step) (step : Filter.Step) :
    ofSteps (steps ++ [step]) = (ofSteps steps).write step :=
  List.foldl_append

section Add

variable (connective : Connective) {transcript : Transcript} {text condition : String}
  {current : Option Connective}

/-- The first condition that is not empty is the whole text. -/
theorem add_of_blank (blank : transcript.text.getD "" = "") :
    transcript.add connective condition = ⟨some condition, none⟩ := by
  obtain ⟨_ | text, current⟩ := transcript
  · rfl
  · exact if_pos blank

theorem add_of_chain (solid : text ≠ "") (given : condition ≠ "") :
    add connective condition ⟨some text, some connective⟩ =
      ⟨some (text ++ connective.word ++ enclosed condition), some connective⟩ := by
  simp only [add, if_neg solid, if_neg given, if_true]

theorem add_of_apart (solid : text ≠ "") (given : condition ≠ "")
    (apart : current ≠ some connective) :
    add connective condition ⟨some text, current⟩ =
      ⟨some (enclosed text ++ connective.word ++ enclosed condition), some connective⟩ := by
  simp only [add, if_neg solid, if_neg given, if_neg apart]

theorem text_add_empty : (transcript.add connective "").text.getD "" = transcript.text.getD "" := by
  obtain ⟨_ | text, current⟩ := transcript
  · rfl
  · by_cases blank : text = "" <;> simp [add, blank]

/-- An empty condition may end a chain and cannot begin one. -/
theorem connective_of_add_empty {other : Connective}
    (chain : (transcript.add connective "").connective = some other) :
    transcript.connective = some other := by
  obtain ⟨_ | text, current⟩ := transcript
  · cases chain
  · by_cases blank : text = ""
    · rw [add, if_pos blank] at chain
      cases chain
    · by_cases same : current = some connective <;> simp_all [add]

end Add

section Operands

variable (connective : Connective)

/-- A connective that is not the one of the text makes no difference. -/
theorem add_of_ne {current : Option Connective} (apart : current ≠ some connective)
    (text condition : String) :
    add connective condition ⟨some text, current⟩ = add connective condition ⟨some text, none⟩ := by
  simp only [add, if_neg apart, reduceCtorEq, if_false]

theorem enclosed_ne_empty (one : String) (others : List String) :
    connective.word.intercalate ((one :: others).map enclosed) ≠ "" := by
  cases others <;> simp [enclosed]

theorem enclosed_concat (one : String) (others : List String) (last : String) :
    connective.word.intercalate ((one :: others ++ [last]).map enclosed) =
      connective.word.intercalate ((one :: others).map enclosed) ++ connective.word ++
        enclosed last := by
  rw [List.map_append, String.intercalate_append_of_ne_nil (by simp) (by simp)]
  simp

/-- The transcript of operands that are connected: a single one stays bare, several are a chain. -/
def ofOperands : List String → Transcript
  | [] => ⟨some "", none⟩
  | [operand] => ⟨some operand, none⟩
  | one :: two :: others =>
    ⟨some (connective.word.intercalate ((one :: two :: others).map enclosed)), some connective⟩

/-- The transcript of conditions that are connected; the empty ones are no operands. -/
def ofConditions (conditions : List String) : Transcript :=
  ofOperands connective (conditions.filter (· ≠ ""))

theorem text_ofConditions (conditions : List String) :
    (ofConditions connective conditions).text = some (connective.connect conditions) := by
  unfold ofConditions Connective.connect
  rcases conditions.filter (· ≠ "") with _ | ⟨one, _ | ⟨two, others⟩⟩
  · exact congrArg some String.intercalate_nil.symm
  · rfl
  · rfl

theorem connective_ofConditions_ne {other : Connective} (apart : connective ≠ other)
    (conditions : List String) : (ofConditions connective conditions).connective ≠ some other := by
  unfold ofConditions
  rcases conditions.filter (· ≠ "") with _ | ⟨one, _ | ⟨two, others⟩⟩ <;> simp [ofOperands, apart]

theorem ofConditions_singleton (condition : String) :
    ofConditions connective [condition] = ⟨some condition, none⟩ := by
  by_cases blank : condition = "" <;> simp [ofConditions, ofOperands, blank]

theorem ofOperands_add_empty (operands : List String) :
    (ofOperands connective operands).add connective "" = ofOperands connective operands := by
  rcases operands with _ | ⟨one, _ | ⟨two, others⟩⟩
  · rfl
  · by_cases blank : one = "" <;> simp [ofOperands, add, blank]
  · simp only [ofOperands, add, if_neg (enclosed_ne_empty connective one (two :: others)), if_true]

theorem ofOperands_add {operands : List String} (solid : ∀ operand ∈ operands, operand ≠ "")
    {condition : String} (given : condition ≠ "") :
    (ofOperands connective operands).add connective condition =
      ofOperands connective (operands ++ [condition]) := by
  rcases operands with _ | ⟨one, _ | ⟨two, others⟩⟩
  · rfl
  · have alone : (none : Option Connective) ≠ some connective := nofun
    rw [ofOperands, add_of_apart connective (solid one List.mem_cons_self) given alone]
    simp [ofOperands]
  · have text := enclosed_ne_empty connective one (two :: others)
    rw [ofOperands, add_of_chain connective text given, ← enclosed_concat]
    rfl

/-- **A further condition is written at the end.** -/
theorem ofConditions_concat (conditions : List String) (condition : String) :
    ofConditions connective (conditions ++ [condition]) =
      (ofConditions connective conditions).add connective condition := by
  have solid : ∀ operand ∈ conditions.filter (· ≠ ""), operand ≠ "" := by simp
  unfold ofConditions
  rw [List.filter_append]
  by_cases blank : condition = ""
  · subst blank
    rw [ofOperands_add_empty]
    simp
  · rw [ofOperands_add connective solid blank]
    simp [blank]

end Operands

end Transcript

/-! ### The tree and its transcript -/

namespace Filter

open Transcript (ofConditions ofConditions_concat ofConditions_singleton)

def step (filter : Option Filter) : Step → Option Filter
  | .set condition => some (single condition)
  | .add connective condition => some (append filter connective condition)

def transcript : Option Filter → Transcript
  | none => {}
  | some (single condition) => ⟨some condition, none⟩
  | some (chain connective first rest) => ofConditions connective (first.sql :: rest)

theorem text_transcript (filter : Option Filter) : (transcript filter).text = filter.map sql := by
  rcases filter with _ | condition | ⟨connective, first, rest⟩
  · rfl
  · rfl
  · exact Transcript.text_ofConditions connective (first.sql :: rest)

/-- A filter becomes the first operand of a new chain. -/
theorem ofConditions_pair (filter : Filter) {connective : Connective}
    (apart : (transcript (some filter)).connective ≠ some connective) (condition : String) :
    ofConditions connective [filter.sql, condition] =
      (transcript (some filter)).add connective condition := by
  have text := text_transcript (some filter)
  rcases same : transcript (some filter) with ⟨written, current⟩
  rw [same] at apart text
  subst text
  rw [Option.map_some, Transcript.add_of_ne connective apart, ← ofConditions_singleton connective]
  exact ofConditions_concat connective [filter.sql] condition

/-- **Adding a condition to the tree is adding it to the text.** -/
theorem transcript_append (filter : Option Filter) (connective : Connective) (condition : String) :
    transcript (some (append filter connective condition)) =
      (transcript filter).add connective condition := by
  rcases filter with _ | present | ⟨current, first, rest⟩
  · exact ofConditions_singleton connective condition
  · exact ofConditions_pair (.single present) nofun condition
  · rw [append]
    split
    · next same =>
      subst same
      exact ofConditions_concat current (first.sql :: rest) condition
    · next apart =>
      have other := Transcript.connective_ofConditions_ne current apart (first.sql :: rest)
      exact ofConditions_pair (.chain current first rest) other condition

theorem transcript_step (filter : Option Filter) (step : Step) :
    transcript (Filter.step filter step) = (transcript filter).write step := by
  cases step with
  | set condition => rfl
  | add connective condition => exact transcript_append filter connective condition

theorem transcript_foldl_step (filter : Option Filter) (steps : List Step) :
    transcript (steps.foldl step filter) = steps.foldl Transcript.write (transcript filter) :=
  (List.foldl_hom transcript fun filter step => (transcript_step filter step).symm).symm

/-- **The text after a run is the one that the steps write.** -/
theorem text_foldl_step (steps : List Step) :
    (steps.foldl step none).map sql = (Transcript.ofSteps steps).text := by
  rw [← text_transcript, transcript_foldl_step]
  rfl

end Filter

end WithClause
