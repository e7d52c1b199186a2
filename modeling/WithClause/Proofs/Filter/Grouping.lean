/-
**How the conditions of a filter are grouped.**

The conditions that a filter was given stand in its text in their order, without the empty ones and
without those before the last one that took the place of all. They are grouped from the left: each
condition is taken together with everything before it. A `Grouping` is such a text taken apart, a
condition or a chain whose first operand is what was there before; `Grouped` ties it to the steps
that wrote the text, and it goes on with every step (`exists_grouped`).

The main result, `Query.filters_transcribed`, puts this together with the transcripts, for both
filters of a query after any run of calls.
-/

import Mathlib.Data.List.Induction
import WithClause.Proofs.Filter.Transcript

namespace WithClause

/-- Conditions put together from the left. The operands of a chain are what was there before and
further conditions, each of them in parentheses. -/
inductive Grouping where
  | condition (text : String)
  | chain (connective : Connective) (first : Grouping) (second : String) (others : List String)

/-- What several operands come to: all of them, or one of them. -/
def Connective.unite : Connective → List Bool → Bool
  | and, operands => operands.all id
  | or, operands => operands.any id

theorem Connective.unite_concat (connective : Connective) (operands : List Bool) (last : Bool) :
    connective.unite (operands ++ [last]) = connective.unite [connective.unite operands, last] := by
  cases connective <;> simp [unite]

namespace Grouping

def text : Grouping → String
  | condition text => text
  | chain connective first second others =>
    connective.word.intercalate ((first.text :: second :: others).map Connective.enclosed)

def conditions : Grouping → List String
  | condition text => [text]
  | chain _ first second others => first.conditions ++ second :: others

/-- Whether the conditions together hold, given which of them do. -/
def holds (given : String → Bool) : Grouping → Bool
  | condition text => given text
  | chain connective first second others =>
    connective.unite (first.holds given :: (second :: others).map given)

end Grouping

namespace Filter

/-- The conditions after a step, without the empty ones. -/
def Step.collect (sofar : List String) : Step → List String
  | .set condition => if condition = "" then [] else [condition]
  | .add _ condition => if condition = "" then sofar else sofar ++ [condition]

/-- What a step makes of a value, given which conditions hold: a condition that is added is taken
together with everything before it. -/
def Step.judge (given : String → Bool) (sofar : Option Bool) : Step → Option Bool
  | .set condition => if condition = "" then none else some (given condition)
  | .add connective condition =>
    if condition = "" then sofar
    else
      match sofar with
      | none => some (given condition)
      | some before => some (connective.unite [before, given condition])

/-- A grouping, none without conditions, that has the text, the conditions and the meaning of
steps. -/
structure Grouped (steps : List Step) (grouping : Option Grouping) : Prop where
  text : (Transcript.ofSteps steps).text.getD "" = (grouping.map Grouping.text).getD ""
  conditions : (grouping.map Grouping.conditions).getD [] = steps.foldl Step.collect []
  meaning : ∀ given, grouping.map (Grouping.holds given) = steps.foldl (Step.judge given) none
  chain : ∀ connective, (Transcript.ofSteps steps).connective = some connective →
    ∃ first second others, grouping = some (.chain connective first second others)
  solid : ∀ one ∈ grouping, one.text ≠ ""

namespace Grouped

variable {steps : List Step} {grouping : Option Grouping}

theorem nil : Grouped [] none where
  text := rfl
  conditions := rfl
  meaning _ := rfl
  chain := nofun
  solid := nofun

/-- A step after which nothing of what was there before is left. -/
theorem begin {step : Step} {condition : String} (given : condition ≠ "")
    (written : Transcript.ofSteps (steps ++ [step]) = ⟨some condition, none⟩)
    (collected : (steps ++ [step]).foldl Step.collect [] = [condition])
    (judged : ∀ holds, (steps ++ [step]).foldl (Step.judge holds) none = some (holds condition)) :
    Grouped (steps ++ [step]) (some (.condition condition)) where
  text := by rw [written]; rfl
  conditions := collected.symm
  meaning holds := (judged holds).symm
  chain := by rw [written]; nofun
  solid := by simpa [Grouping.text] using given

theorem set (steps : List Step) (condition : String) :
    ∃ next, Grouped (steps ++ [.set condition]) next := by
  have written : Transcript.ofSteps (steps ++ [.set condition]) = ⟨some condition, none⟩ :=
    Transcript.ofSteps_concat steps (.set condition)
  by_cases blank : condition = ""
  · refine ⟨none, ?_, ?_, fun given => ?_, ?_, nofun⟩
    · rw [written, blank]
      rfl
    · simp [Step.collect, blank]
    · simp [Step.judge, blank]
    · rw [written]
      nofun
  · refine ⟨some (.condition condition), begin blank written ?_ fun given => ?_⟩
    · simp [Step.collect, blank]
    · simp [Step.judge, blank]

section Add

variable (grouped : Grouped steps grouping) (connective : Connective)
include grouped

theorem add_empty : Grouped (steps ++ [.add connective ""]) grouping where
  text := by
    rw [Transcript.ofSteps_concat, ← grouped.text]
    exact Transcript.text_add_empty connective
  conditions := by simp [Step.collect, grouped.conditions]
  meaning given := by simp [Step.judge, grouped.meaning]
  chain other chain := by
    rw [Transcript.ofSteps_concat] at chain
    exact grouped.chain other (Transcript.connective_of_add_empty connective chain)
  solid := grouped.solid

end Add

section Further

variable {one next : Grouping} {connective : Connective} {condition : String}

theorem text_eq (grouped : Grouped steps (some one)) :
    (Transcript.ofSteps steps).text = some one.text := by
  have text := grouped.text
  have solid := grouped.solid one rfl
  cases written : (Transcript.ofSteps steps).text with
  | none =>
    rw [written] at text
    exact absurd text.symm solid
  | some other =>
    rw [written] at text
    exact congrArg some text

/-- A condition after others makes a chain of what was there before and itself. -/
theorem add_given (grouped : Grouped steps (some one)) (given : condition ≠ "")
    (written : Transcript.ofSteps (steps ++ [.add connective condition]) =
      ⟨some next.text, some connective⟩)
    (chain : ∃ first second others, next = .chain connective first second others)
    (conditions : next.conditions = one.conditions ++ [condition])
    (meaning : ∀ holds, next.holds holds = connective.unite [one.holds holds, holds condition]) :
    Grouped (steps ++ [.add connective condition]) (some next) where
  text := by rw [written]; rfl
  conditions := by simp [Step.collect, given, ← grouped.conditions, conditions]
  meaning holds := by simp [Step.judge, given, ← grouped.meaning, meaning]
  chain other same := by
    rw [written] at same
    cases same
    simpa using chain
  solid := by
    obtain ⟨first, second, others, rfl⟩ := chain
    rintro _ ⟨⟩
    exact Transcript.enclosed_ne_empty connective _ _

theorem exists_add_given (grouped : Grouped steps (some one)) (connective : Connective)
    (given : condition ≠ "") :
    ∃ next, Grouped (steps ++ [.add connective condition]) (some next) := by
  have text := grouped.text_eq
  have solid := grouped.solid one rfl
  have shape := grouped.chain
  have step := Transcript.ofSteps_concat steps (.add connective condition)
  rcases before : Transcript.ofSteps steps with ⟨written, current⟩
  rw [before] at text shape step
  subst text
  by_cases goes : current = some connective
  · subst goes
    obtain ⟨first, second, others, same⟩ := shape connective rfl
    cases same
    have wider : Transcript.ofSteps (steps ++ [.add connective condition]) =
        ⟨some (Grouping.text (.chain connective first second (others ++ [condition]))),
          some connective⟩ := by
      rw [step, Transcript.write, Transcript.add_of_chain connective solid given]
      exact congrArg (fun text => Transcript.mk (some text) (some connective))
        (Transcript.enclosed_concat connective first.text (second :: others) condition).symm
    refine ⟨_, grouped.add_given given wider ⟨_, _, _, rfl⟩ ?_ fun holds => ?_⟩
    · simp [Grouping.conditions]
    · have further := connective.unite_concat (first.holds holds :: (second :: others).map holds)
        (holds condition)
      rw [Grouping.holds, Grouping.holds, ← further]
      simp
  · have new : Transcript.ofSteps (steps ++ [.add connective condition]) =
        ⟨some (Grouping.text (.chain connective one condition [])), some connective⟩ := by
      rw [step, Transcript.write, Transcript.add_of_apart connective solid given goes]
      simp [Grouping.text]
    exact ⟨_, grouped.add_given given new ⟨_, _, _, rfl⟩ rfl fun _ => rfl⟩

end Further

theorem add (grouped : Grouped steps grouping) (connective : Connective) (condition : String) :
    ∃ next, Grouped (steps ++ [.add connective condition]) next := by
  by_cases blank : condition = ""
  · subst blank
    exact ⟨grouping, grouped.add_empty connective⟩
  · cases grouping with
    | none =>
      have written : Transcript.ofSteps (steps ++ [.add connective condition]) =
          ⟨some condition, none⟩ := by
        rw [Transcript.ofSteps_concat]
        exact Transcript.add_of_blank connective grouped.text
      refine ⟨_, begin blank written ?_ fun holds => ?_⟩
      · simp [Step.collect, blank, ← grouped.conditions]
      · simp [Step.judge, blank, ← grouped.meaning]
    | some one =>
      obtain ⟨next, further⟩ := grouped.exists_add_given connective blank
      exact ⟨some next, further⟩

end Grouped

/-- **The conditions are grouped from the left.** -/
theorem exists_grouped (steps : List Step) : ∃ grouping, Grouped steps grouping := by
  induction steps using List.reverseRecOn with
  | nil => exact ⟨none, Grouped.nil⟩
  | append_singleton steps step ih =>
    obtain ⟨grouping, grouped⟩ := ih
    cases step with
    | set condition => exact Grouped.set steps condition
    | add connective condition => exact grouped.add connective condition

end Filter

/-! ### The filters of a query -/

namespace Query

/-- The step that a call is on the filter after WHERE. -/
def Call.rowStep? : Call → Option Filter.Step
  | .setFilter condition => some (.set condition)
  | .addFilter connective condition => some (.add connective condition)
  | _ => none

/-- The step that a call is on the filter after HAVING. -/
def Call.groupStep? : Call → Option Filter.Step
  | .setGroupFilter condition => some (.set condition)
  | .addGroupFilter connective condition => some (.add connective condition)
  | _ => none

/-- A part that is changed by its own calls alone goes through their steps. -/
theorem foldl_steps {β σ : Type} {part : Query → β} {step? : Call → Option σ} {step : β → σ → β}
    (each : ∀ query call, part (query.call call) =
      (step? call).elim (part query) (step (part query)))
    (query : Query) (calls : List Call) :
    part (query.run calls) = (calls.filterMap step?).foldl step (part query) := by
  induction calls generalizing query with
  | nil => rfl
  | cons call others ih =>
    show part ((query.call call).run others) = _
    rw [ih, each]
    cases own : step? call with
    | none => rw [List.filterMap_cons_none own]; rfl
    | some step => rw [List.filterMap_cons_some own]; rfl

theorem filter_run (calls : List Call) :
    ((∅ : Query).run calls).filter = (calls.filterMap Call.rowStep?).foldl Filter.step none := by
  refine foldl_steps (fun query call => ?_) ∅ calls
  cases call with
  | bindNamed value placeholder => cases placeholder <;> rfl
  | _ => rfl

theorem groupFilter_run (calls : List Call) :
    ((∅ : Query).run calls).groupFilter =
      (calls.filterMap Call.groupStep?).foldl Filter.step none := by
  refine foldl_steps (fun query call => ?_) ∅ calls
  cases call with
  | bindNamed value placeholder => cases placeholder <;> rfl
  | _ => rfl

/-- **Filters are written from the left.** After any run of calls, the text of either filter is the
one that a transcript of its own calls has: the text so far, and the connective of the chain that it
is. The text has all conditions since the last one that was set, in their order and without the
empty ones, and it means that each was taken together with everything before it. -/
theorem filters_transcribed (calls : List Call) :
    let query := (∅ : Query).run calls
    let rows := calls.filterMap Call.rowStep?
    let groups := calls.filterMap Call.groupStep?
    query.filter.map Filter.sql = (Transcript.ofSteps rows).text ∧
    query.groupFilter.map Filter.sql = (Transcript.ofSteps groups).text ∧
    (∃ grouping, Filter.Grouped rows grouping) ∧
    ∃ grouping, Filter.Grouped groups grouping := by
  intro query rows groups
  refine ⟨?_, ?_, Filter.exists_grouped rows, Filter.exists_grouped groups⟩
  · show ((∅ : Query).run calls).filter.map Filter.sql = _
    rw [filter_run, Filter.text_foldl_step]
  · show ((∅ : Query).run calls).groupFilter.map Filter.sql = _
    rw [groupFilter_run, Filter.text_foldl_step]

/-- An empty condition ends the chain, so that the next condition begins another one. -/
example :
    ((∅ : Query).run [.addFilter .and "a", .addFilter .and "b", .addFilter .or "",
      .addFilter .and "c", .addFilter .and "d"]).filter.map Filter.sql =
      some "((a) AND (b)) AND (c) AND (d)" := by
  rfl

end Query

end WithClause
