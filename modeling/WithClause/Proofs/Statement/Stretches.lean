/-
**Where a preview puts something in.**

A preview cuts the text of a statement into stretches, letters that stay and placeholders that give
way to a literal (`stretches`). The stretches cover the text, and what they show is the preview
(`covered_stretches`, `shown_stretches`). How a text is cut from some place on depends on the text
from there on only (`stretches_covered_of_append`), so that one place decides: a placeholder gives
way to its first literal exactly if the preview gets there and no longer placeholder stands there
(`putsIn_iff`).

It is the bound placeholders that count. One that begins a longer word is spared if that word is
bound, but it gives way where nothing longer is (`head_putsIn_iff`).
-/

import WithClause.Proofs.Statement.Preview

namespace WithClause

/-- A stretch of a text that is filled in. -/
inductive Stretch where
  | stays (letter : Char)
  | givesWay (placeholder literal : List Char)

namespace Stretch

/-- The text that the stretch takes up. -/
def covered : Stretch → List Char
  | stays letter => [letter]
  | givesWay placeholder _ => placeholder

/-- The text that is shown for the stretch. -/
def shown : Stretch → List Char
  | stays letter => [letter]
  | givesWay _ literal => literal

end Stretch

namespace Statement

/-! ### Cutting a text -/

/-- The stretches of a text that is filled in from left to right. -/
def stretches (replacements : List Replacement) : List Char → List Stretch
  | [] => []
  | letter :: rest =>
    match replacements.find? fun replacement => replacement.target.isPrefixOf (letter :: rest) with
    | some replacement =>
      .givesWay replacement.target replacement.content ::
        stretches replacements ((letter :: rest).drop replacement.target.length)
    | none => .stays letter :: stretches replacements rest
termination_by letters => letters.length
decreasing_by
  · have some : 0 < replacement.target.length := List.length_pos_iff.mpr replacement.solid
    rw [List.length_drop, List.length_cons]
    omega
  · exact Nat.lt_succ_self _

section Stretches

variable (bindings : OrderedMap Key Value)

theorem covered_stretches (letters : List Char) :
    (stretches (replacements bindings) letters).flatMap Stretch.covered = letters := by
  fun_induction stretches (replacements bindings) letters with
  | case1 => rfl
  | case2 letter rest replacement found ih =>
    rw [List.flatMap_cons, ih]
    exact List.prefix_iff_eq_append.mp (find?_replacements found).1
  | case3 letter rest none ih => rw [List.flatMap_cons, ih]; rfl

theorem shown_stretches (letters : List Char) :
    (stretches (replacements bindings) letters).flatMap Stretch.shown =
      fillIn (replacements bindings) letters := by
  fun_induction stretches (replacements bindings) letters with
  | case1 => rw [fillIn]; rfl
  | case2 letter rest replacement found ih => rw [List.flatMap_cons, ih, fillIn_of_some found]; rfl
  | case3 letter rest none ih => rw [List.flatMap_cons, ih, fillIn_of_none none]; rfl

variable {bindings} {letters : List Char} {replacement : Replacement}

theorem stretches_of_some (found : (replacements bindings).find?
      (fun replacement => replacement.target.isPrefixOf letters) = some replacement) :
    stretches (replacements bindings) letters =
      .givesWay replacement.target replacement.content ::
        stretches (replacements bindings) (letters.drop replacement.target.length) := by
  cases letters with
  | nil => exact absurd (List.prefix_nil.mp (find?_replacements found).1) replacement.solid
  | cons letter rest => rw [stretches, found]

theorem stretches_of_none {letter : Char} {rest : List Char}
    (none : (replacements bindings).find?
      (fun replacement => replacement.target.isPrefixOf (letter :: rest)) = none) :
    stretches (replacements bindings) (letter :: rest) =
      .stays letter :: stretches (replacements bindings) rest := by
  rw [stretches, none]

/-- What comes after the first stretch is cut as a text of its own. -/
theorem stretches_covered_tail {stretch : Stretch} {others : List Stretch}
    (split : stretches (replacements bindings) letters = stretch :: others) :
    stretches (replacements bindings) (others.flatMap Stretch.covered) = others := by
  cases letters with
  | nil =>
    rw [stretches] at split
    cases split
  | cons letter rest =>
    cases found : (replacements bindings).find?
        fun replacement => replacement.target.isPrefixOf (letter :: rest) with
    | some replacement =>
      rw [stretches_of_some found] at split
      rw [← (List.cons.inj split).2, covered_stretches]
    | none =>
      rw [stretches_of_none found] at split
      rw [← (List.cons.inj split).2, covered_stretches]

/-- **A text is cut from a place on as the text from there on is cut.** -/
theorem stretches_covered_of_append {first second : List Stretch}
    (split : stretches (replacements bindings) letters = first ++ second) :
    stretches (replacements bindings) (second.flatMap Stretch.covered) = second := by
  induction first generalizing letters with
  | nil =>
    rw [List.nil_append] at split
    rw [← split, covered_stretches]
  | cons stretch others ih => exact ih (stretches_covered_tail split)

end Stretches

/-! ### One place in a text -/

/-- A preview gets to the place after some letters: they are covered by whole stretches. -/
def Reaches (bindings : OrderedMap Key Value) (letters before : List Char) : Prop :=
  ∃ first second, stretches (replacements bindings) letters = first ++ second ∧
    first.flatMap Stretch.covered = before

/-- After some letters a placeholder gives way to a literal. -/
def PutsIn (bindings : OrderedMap Key Value) (letters before placeholder literal : List Char) :
    Prop :=
  ∃ first second,
    stretches (replacements bindings) letters =
      first ++ .givesWay placeholder literal :: second ∧
    first.flatMap Stretch.covered = before

section Place

variable {bindings : OrderedMap Key Value} {before placeholder rest literal : List Char}

/-- The first stretch of a text is the longest placeholder that stands there, if one does. -/
theorem stretches_head_iff {letters : List Char} :
    (∃ others, stretches (replacements bindings) letters =
      .givesWay placeholder literal :: others) ↔
    placeholder <+: letters ∧
      (∀ other ∈ (literals bindings).map Prod.fst, other <+: letters →
        other.length ≤ placeholder.length) ∧
      (literals bindings).lookup placeholder = some literal := by
  constructor
  · rintro ⟨others, split⟩
    cases found : (replacements bindings).find?
        fun replacement => replacement.target.isPrefixOf letters with
    | some replacement =>
      rw [stretches_of_some found] at split
      cases (List.cons.inj split).1
      exact find?_replacements found
    | none =>
      cases letters with
      | nil =>
        rw [stretches] at split
        cases split
      | cons letter rest =>
        rw [stretches_of_none found] at split
        cases split
  · rintro ⟨stands, longest, first⟩
    obtain ⟨replacement, found, rfl, rfl⟩ := exists_find?_replacements stands longest first
    exact ⟨_, stretches_of_some found⟩

/-- **A placeholder gives way where a preview gets to it and no longer one stands**, and it gives
way to its first literal. -/
theorem putsIn_iff :
    PutsIn bindings (before ++ (placeholder ++ rest)) before placeholder literal ↔
      Reaches bindings (before ++ (placeholder ++ rest)) before ∧
      (∀ other ∈ (literals bindings).map Prod.fst, other <+: placeholder ++ rest →
        other.length ≤ placeholder.length) ∧
      (literals bindings).lookup placeholder = some literal := by
  -- What is cut from the place on covers the placeholder with what follows it.
  have onwards {first second : List Stretch}
      (split : stretches (replacements bindings) (before ++ (placeholder ++ rest)) =
        first ++ second) (reached : first.flatMap Stretch.covered = before) :
      stretches (replacements bindings) (placeholder ++ rest) = second := by
    have whole := covered_stretches bindings (before ++ (placeholder ++ rest))
    rw [split, List.flatMap_append, reached] at whole
    rw [← List.append_cancel_left whole]
    exact stretches_covered_of_append split
  constructor
  · rintro ⟨first, second, split, reached⟩
    have head := stretches_head_iff.mp ⟨second, onwards split reached⟩
    exact ⟨⟨first, _, split, reached⟩, head.2⟩
  · rintro ⟨⟨first, second, split, reached⟩, longest, bound⟩
    obtain ⟨others, head⟩ := stretches_head_iff.mpr
      ⟨List.prefix_append placeholder rest, longest, bound⟩
    rw [onwards split reached] at head
    exact ⟨first, others, head ▸ split, reached⟩

end Place

/-! ### Heads of longer words -/

/-- A letter, a digit or an underscore. -/
def isNameLetter (letter : Char) : Bool := letter.isAlphanum || letter == '_'

section Head

variable {statement : Statement} {text : String}

theorem preview_eq_shown (written : statement.sql = .ok text) :
    statement.preview = .ok (String.ofList
      ((stretches (replacements statement.bindings) text.toList).flatMap Stretch.shown)) := by
  rw [shown_stretches, preview, written]
  rfl

/-- **The head of a longer word in a preview.** A placeholder that goes on with a letter of a name
gives way to the literal that was bound to it first exactly if the preview gets there and no bound
placeholder that stands there is longer. In particular it does not if the whole word is bound,
whichever letters names are made of. -/
theorem head_putsIn_iff (written : statement.sql = .ok text) {name : String}
    {before after : List Char} {next : Char}
    (stands : text.toList = before ++ (placeholderOf name ++ next :: after))
    {isLetter : Char → Bool} (goesOn : isLetter next = true) :
    let cut := stretches (replacements statement.bindings) text.toList
    let bound := (literals statement.bindings).map Prod.fst
    (cut.flatMap Stretch.covered = text.toList ∧
      statement.preview = .ok (String.ofList (cut.flatMap Stretch.shown))) ∧
    (∀ literal, PutsIn statement.bindings text.toList before (placeholderOf name) literal ↔
      Reaches statement.bindings text.toList before ∧
      (∀ other ∈ bound, other <+: placeholderOf name ++ next :: after →
        other.length ≤ (placeholderOf name).length) ∧
      (literals statement.bindings).lookup (placeholderOf name) = some literal) ∧
    (placeholderOf name ++ (next :: after).takeWhile isLetter ∈ bound →
      ∀ literal, ¬ PutsIn statement.bindings text.toList before (placeholderOf name) literal) := by
  intro cut bound
  have decided (literal : List Char) :
      PutsIn statement.bindings text.toList before (placeholderOf name) literal ↔
        Reaches statement.bindings text.toList before ∧
        (∀ other ∈ bound, other <+: placeholderOf name ++ next :: after →
          other.length ≤ (placeholderOf name).length) ∧
        (literals statement.bindings).lookup (placeholderOf name) = some literal := by
    rw [stands]
    exact putsIn_iff
  refine ⟨⟨covered_stretches _ _, preview_eq_shown written⟩, decided, ?_⟩
  intro whole literal putsIn
  obtain ⟨_, longest, _⟩ := (decided literal).mp putsIn
  have starts : placeholderOf name ++ (next :: after).takeWhile isLetter <+:
      placeholderOf name ++ next :: after :=
    (List.prefix_append_right_inj _).mpr (List.takeWhile_prefix _)
  have shorter := longest _ whole starts
  rw [List.takeWhile_cons_of_pos goesOn, List.length_append, List.length_cons] at shorter
  omega

/-- The word is bound as a whole, and so its head is spared. -/
theorem head_putsIn_iff_whole :
    let statement := ofQuery ((∅ : Query).run [.select [":id_list"],
      .bind (.named "id") (.int 4), .bind (.named "id_list") (.text "1,2")])
    let text := "SELECT :id_list"
    statement.sql = .ok text ∧
    text.toList = "SELECT ".toList ++ (placeholderOf "id" ++ '_' :: "list".toList) ∧
    isNameLetter '_' = true ∧
    statement.preview = .ok "SELECT '1,2'" ∧
    ∀ literal,
      ¬ PutsIn statement.bindings text.toList "SELECT ".toList (placeholderOf "id") literal := by
  intro statement text
  have written : statement.sql = .ok text := by cbv
  have stands : text.toList =
      "SELECT ".toList ++ (placeholderOf "id" ++ '_' :: "list".toList) := by decide
  have goesOn : isNameLetter '_' = true := rfl
  obtain ⟨_, _, spared⟩ := head_putsIn_iff written stands goesOn
  exact ⟨written, stands, goesOn, by cbv, spared (by decide)⟩

/-- The word is not bound, and its head gives way. -/
theorem head_putsIn_unbound :
    let statement := ofQuery ((∅ : Query).run [.select [":id_list"], .bind (.named "id") (.int 4)])
    let text := "SELECT :id_list"
    statement.sql = .ok text ∧
    statement.hasBinding (.named "id") = true ∧
    text.toList = "SELECT ".toList ++ (placeholderOf "id" ++ '_' :: "list".toList) ∧
    isNameLetter '_' = true ∧
    statement.preview = .ok "SELECT 4_list" ∧
    PutsIn statement.bindings text.toList "SELECT ".toList (placeholderOf "id") "4".toList := by
  intro statement text
  refine ⟨by cbv, rfl, by decide, rfl, by cbv,
    "SELECT ".toList.map .stays, "_list".toList.map .stays, ?_, by decide⟩
  cbv

end Head

end Statement

end WithClause
