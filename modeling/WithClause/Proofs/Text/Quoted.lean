/-
**Reading an SQL string literal.**

A literal runs from its opening quote to the first quote that is not doubled; a doubled quote stands
for one (`scanQuoted`). Each letter of a text is written so that the reader takes it whole, a quote
with its double, whatever comes next (`untilQuote_doubleQuotes`). So the reader gets through the
letters of a text to the closing quote:

* `scanQuoted_quoted`: unless another quote follows, it stops there, with the text that was written;
* `scanQuoted_within`: if a quote follows it may go on, but it stops nowhere before;
* `quoted_injective`: no two texts have the same literal.
-/

import WithClause.Text.Quoted
import WithClause.Text.Scan

namespace WithClause.Text

/-- Reads the letters of a literal behind its opening quote, and passes over the closing one. -/
def untilQuote : List Char → Option (List Char × List Char)
  | [] => none
  | '\'' :: '\'' :: rest => (untilQuote rest).map fun (letters, left) => ('\'' :: letters, left)
  | letter :: rest =>
    if letter = '\'' then some ([], rest)
    else (untilQuote rest).map fun (letters, left) => (letter :: letters, left)

/-- One SQL string literal. -/
def scanQuoted : Scan String := do
  Scan.letter '\''
  String.ofList <$> ⟨untilQuote⟩

/-- What stands behind a literal makes no reader stop inside it. -/
structure ReadsAs (literal : List Char) (text : String) (after : List Char) : Prop where
  /-- Before anything but a quote it is read up to its end. -/
  toTheEnd : after.head? ≠ some '\'' → scanQuoted.run (literal ++ after) = some (text, after)
  /-- A reader that stops anywhere has read all of it. -/
  notBefore : ∀ read left, scanQuoted.run (literal ++ after) = some (read, left) →
    (∃ further, read = text ++ further) ∧ left <:+ after

/-! ### Letters behind the opening quote -/

theorem untilQuote_doubled (rest : List Char) :
    untilQuote ('\'' :: '\'' :: rest) =
      (untilQuote rest).map fun (letters, left) => ('\'' :: letters, left) := by
  rw [untilQuote]

theorem untilQuote_letter {letter : Char} (apart : letter ≠ '\'') (rest : List Char) :
    untilQuote (letter :: rest) =
      (untilQuote rest).map fun (letters, left) => (letter :: letters, left) := by
  rw [untilQuote, if_neg apart]
  rintro others ⟨⟩
  exact absurd rfl apart

theorem untilQuote_closing {rest : List Char} (ends : rest.head? ≠ some '\'') :
    untilQuote ('\'' :: rest) = some ([], rest) := by
  rw [untilQuote, if_pos rfl]
  rintro others - rfl
  exact ends rfl

/-- **The letters of a text are read one by one, whatever stands behind them.** -/
theorem untilQuote_doubleQuotes (letters after : List Char) :
    untilQuote (doubleQuotes letters ++ after) =
      (untilQuote after).map fun (further, left) => (letters ++ further, left) := by
  induction letters with
  | nil => simp [doubleQuotes]
  | cons letter rest ih =>
    rw [doubleQuotes]
    by_cases quote : letter = '\''
    · subst quote
      rw [if_pos rfl, List.cons_append, List.cons_append, untilQuote_doubled, ih, Option.map_map]
      rfl
    · rw [if_neg quote, List.cons_append, untilQuote_letter quote, ih, Option.map_map]
      rfl

/-- What is left is a part of what stood there. -/
theorem suffix_of_untilQuote {text letters left : List Char}
    (read : untilQuote text = some (letters, left)) : left <:+ text := by
  fun_induction untilQuote text generalizing letters left with
  | case1 => cases read
  | case2 rest ih =>
    obtain ⟨⟨further, same⟩, inner, ⟨⟩⟩ := Option.map_eq_some_iff.mp read
    exact (ih inner).trans ⟨['\'', '\''], rfl⟩
  | case3 rest =>
    cases read
    exact List.suffix_cons _ _
  | case4 letter rest _ _ ih =>
    obtain ⟨⟨further, same⟩, inner, ⟨⟩⟩ := Option.map_eq_some_iff.mp read
    exact (ih inner).trans (List.suffix_cons _ _)

/-! ### Whole literals -/

theorem run_scanQuoted_cons (rest : List Char) :
    scanQuoted.run ('\'' :: rest) =
      (untilQuote rest).map fun (letters, left) => (String.ofList letters, left) := by
  rw [scanQuoted, Scan.run_bind_of_some (Scan.run_letter_cons _ rest), Scan.run_map]

/-- A literal is read as its text and what the reader finds behind it. -/
theorem run_scanQuoted (text : String) (after : List Char) :
    scanQuoted.run ((quoted text).toList ++ after) =
      (untilQuote ('\'' :: after)).map fun (further, left) =>
        (text ++ String.ofList further, left) := by
  have behind : (quoted text).toList ++ after =
      '\'' :: (doubleQuotes text.toList ++ '\'' :: after) := by
    rw [quoted, String.toList_ofList]
    simp
  rw [behind, run_scanQuoted_cons, untilQuote_doubleQuotes, Option.map_map]
  refine Option.map_congr fun read _ => ?_
  simp only [Function.comp_apply, String.ofList_append, String.ofList_toList]

/-- **A literal is read as the text that was written, up to its end,** unless a quote follows. -/
theorem scanQuoted_quoted (text : String) {after : List Char} (ends : after.head? ≠ some '\'') :
    scanQuoted.run ((quoted text).toList ++ after) = some (text, after) := by
  rw [run_scanQuoted, untilQuote_closing ends]
  show some (text ++ "", after) = _
  rw [String.append_empty]

/-- **A literal is read to its end at least,** whatever follows. -/
theorem scanQuoted_within {text read : String} {after left : List Char}
    (ended : scanQuoted.run ((quoted text).toList ++ after) = some (read, left)) :
    (∃ further, read = text ++ further) ∧ left <:+ after := by
  rw [run_scanQuoted] at ended
  obtain ⟨⟨further, same⟩, inner, ⟨⟩⟩ := Option.map_eq_some_iff.mp ended
  refine ⟨⟨String.ofList further, rfl⟩, ?_⟩
  by_cases quote : after.head? = some '\''
  · obtain ⟨rest, rfl⟩ := List.head?_eq_some_iff.mp quote
    rw [untilQuote_doubled] at inner
    obtain ⟨_, more, ⟨⟩⟩ := Option.map_eq_some_iff.mp inner
    exact (suffix_of_untilQuote more).trans (List.suffix_cons _ _)
  · rw [untilQuote_closing quote] at inner
    cases inner
    exact List.suffix_refl _

theorem readsAs_quoted (text : String) (after : List Char) :
    ReadsAs (quoted text).toList text after where
  toTheEnd := scanQuoted_quoted text
  notBefore _ _ := scanQuoted_within

theorem quoted_injective : Function.Injective quoted := by
  intro first second same
  have one := @scanQuoted_quoted first [] (by simp)
  have other := @scanQuoted_quoted second [] (by simp)
  rw [same, other] at one
  cases one
  rfl

end WithClause.Text
