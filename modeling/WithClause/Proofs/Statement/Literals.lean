/-
**The literals of texts in a preview.**

Where a placeholder gives way in a preview there stands the literal of a bound value
(`exists_binding_of_givesWay`). If the value is a text, its literal is read back as that text
wherever it stands: up to its end before anything but a quote, and to its end at least before a
quote (`literals_closed`). No text ends its literal early, whatever quotes it has.
-/

import WithClause.Proofs.Statement.Stretches
import WithClause.Proofs.Text.Quoted

namespace WithClause.Statement

section Cut

variable {bindings : OrderedMap Key Value} {letters placeholder literal : List Char}
  {first second : List Stretch}
  (split : stretches (replacements bindings) letters =
    first ++ .givesWay placeholder literal :: second)
include split

/-- What gives way stands at the head of the text from its place on. -/
theorem lookup_of_givesWay : (literals bindings).lookup placeholder = some literal := by
  have onwards := stretches_covered_of_append split
  exact (stretches_head_iff.mp ⟨second, onwards⟩).2.2

theorem exists_binding_of_givesWay :
    ∃ key value, bindings.get? key = some value ∧ literal = value.literal.toList := by
  obtain ⟨before, after, found, _⟩ := List.lookup_eq_some_iff.mp (lookup_of_givesWay split)
  have member : (placeholder, literal) ∈ literals bindings := by rw [found]; simp
  obtain ⟨⟨key, value⟩, bound, named⟩ := List.mem_filterMap.mp member
  obtain ⟨name, _, same⟩ := Option.map_eq_some_iff.mp named
  exact ⟨key, value, (bindings.get?_eq_some_iff key value).mpr bound, (Prod.ext_iff.mp same).2.symm⟩

theorem shown_of_givesWay : fillIn (replacements bindings) letters =
    first.flatMap Stretch.shown ++ (literal ++ second.flatMap Stretch.shown) := by
  rw [← shown_stretches, split, List.flatMap_append, List.flatMap_cons]
  rfl

end Cut

/-- **The literal of a text is closed.** Read before anything but a quote it is the text, up to its
end, and no reader stops before its end; so no two texts have one literal. In a preview the literals
of bound values stand in the places of placeholders, and what comes behind them there makes no
reader stop inside the literal of a text. -/
theorem literals_closed :
    (∀ text after, Text.ReadsAs (Value.text text).literal.toList text after) ∧
    Function.Injective (fun text => (Value.text text).literal) ∧
    ∀ (statement : Statement) (written : String), statement.sql = .ok written →
      ∃ preview, statement.preview = .ok preview ∧
        ∀ first placeholder literal second,
          stretches (replacements statement.bindings) written.toList =
            first ++ .givesWay placeholder literal :: second →
          let after := second.flatMap Stretch.shown
          preview.toList = first.flatMap Stretch.shown ++ (literal ++ after) ∧
          (∃ key value, statement.binding? key = some value ∧ literal = value.literal.toList) ∧
          ∀ text, literal = (Value.text text).literal.toList → Text.ReadsAs literal text after := by
  refine ⟨Text.readsAs_quoted, Text.quoted_injective, fun statement written compiled => ?_⟩
  refine ⟨_, preview_eq_shown compiled, fun first placeholder literal second split => ?_⟩
  refine ⟨?_, exists_binding_of_givesWay split, ?_⟩
  · rw [String.toList_ofList, shown_stretches]
    exact shown_of_givesWay split
  · rintro text rfl
    exact Text.readsAs_quoted text _

/-- A text that ends in a quote, before a word and before the literal of another text. -/
theorem literals_closed_quotes :
    let statement := ofQuery ((∅ : Query).run [.select [":a or :a:b"],
      .bind (.named "a") (.text "it's '"), .bind (.named "b") (.text "'")])
    let literal := "'it''s '''".toList
    let after := " or 'it''s '''''''".toList
    statement.sql = .ok "SELECT :a or :a:b" ∧
    statement.preview = .ok "SELECT 'it''s ''' or 'it''s '''''''" ∧
    Text.scanQuoted.run (literal ++ after) = some ("it's '", after) ∧
    ∀ read left, Text.scanQuoted.run (literal ++ "''''".toList) = some (read, left) →
      (∃ further, read = "it's '" ++ further) ∧ left <:+ "''''".toList := by
  intro statement literal after
  have written : statement.sql = .ok "SELECT :a or :a:b" := by cbv
  have split : stretches (replacements statement.bindings) "SELECT :a or :a:b".toList =
      "SELECT ".toList.map .stays ++ .givesWay ":a".toList literal ::
        (" or ".toList.map .stays ++ [.givesWay ":a".toList literal,
          .givesWay ":b".toList "''''".toList]) := by cbv
  obtain ⟨alone, _, each⟩ := literals_closed
  obtain ⟨preview, shown, cut⟩ := each statement _ written
  obtain ⟨_, _, closed⟩ := cut _ _ _ _ split
  refine ⟨written, by cbv, (closed "it's '" rfl).toTheEnd (by decide), ?_⟩
  exact (alone "it's '" "''''".toList).notBefore

end WithClause.Statement
