/-
**What a preview puts in.**

A preview goes through the text of a statement from left to right. Where placeholders stand it takes
the longest one, puts in the first literal that is bound to it and goes on behind it; every other
letter stays. `FilledIn` says this of a text and what becomes of it, without an order among the
replacements.

The preview itself takes the first replacement that stands in a place, from a list sorted by size in
bytes. Of two placeholders that stand in one place the shorter one begins the longer one, and so has
fewer bytes (`size_lt_of_prefix`); those of one placeholder keep their order (`filter_mergeSort`).
Hence the first one is the longest, with the literal that was bound first (`find?_replacements`),
and a text is filled in exactly in the one way that the preview finds (`filledIn_iff`).
-/

import Mathlib
import WithClause.Statement.Preview

namespace WithClause

/-! ### Texts filled in -/

/-- The placeholders of the named bindings with the literals of their values, in the order of the
bindings. -/
def literals (bindings : OrderedMap Key Value) : List (List Char × List Char) :=
  bindings.entries.filterMap fun binding =>
    binding.1.name?.map fun name => (Statement.placeholderOf name, binding.2.literal.toList)

/-- A text and what becomes of it when literals are put in from left to right. -/
inductive FilledIn (literals : List (List Char × List Char)) : List Char → List Char → Prop
  | done : FilledIn literals [] []
  /-- The longest placeholder that stands here gives way to the first literal it has. -/
  | replaced {placeholder literal rest filled : List Char} :
      (∀ other ∈ literals.map Prod.fst, other <+: placeholder ++ rest →
        other.length ≤ placeholder.length) →
      literals.lookup placeholder = some literal →
      FilledIn literals rest filled →
      FilledIn literals (placeholder ++ rest) (literal ++ filled)
  /-- No placeholder stands here. -/
  | copied {letter : Char} {rest filled : List Char} :
      (∀ placeholder ∈ literals.map Prod.fst, ¬ placeholder <+: letter :: rest) →
      FilledIn literals rest filled →
      FilledIn literals (letter :: rest) (letter :: filled)

/-! ### The order of the replacements -/

section Order

/-- A text that goes on after another one has more bytes. -/
theorem size_lt_of_prefix {first second : Replacement} (starts : first.target <+: second.target)
    (shorter : first.target.length < second.target.length) : first.size < second.size := by
  obtain ⟨further, same⟩ := starts
  rw [← same, List.length_append] at shorter
  have goesOn : further ≠ [] := by
    rintro rfl
    exact Nat.lt_irrefl _ shorter
  have bytes : (String.ofList further).utf8ByteSize ≠ 0 :=
    String.utf8ByteSize_eq_zero_iff.not.mpr (String.ofList_eq_empty_iff.not.mpr goesOn)
  unfold Replacement.size
  rw [← same, String.ofList_append, String.utf8ByteSize_append]
  omega

/-- Sorting leaves those in their order that may stand in either order. -/
theorem filter_mergeSort {α : Type*} {le : α → α → Bool}
    (trans : ∀ a b c, le a b = true → le b c = true → le a c = true)
    (total : ∀ a b, (le a b || le b a) = true) {among : α → Bool}
    (either : ∀ a b, among a = true → among b = true → le a b = true) (elements : List α) :
    (elements.mergeSort le).filter among = elements.filter among := by
  have sorted : (elements.filter among).Pairwise fun a b => le a b = true := by
    refine List.pairwise_of_forall_mem_list fun a there b later => ?_
    exact either a b (List.mem_filter.mp there).2 (List.mem_filter.mp later).2
  have inside := (List.sublist_mergeSort trans total sorted List.filter_sublist).filter among
  have same := ((List.mergeSort_perm elements le).filter among).length_eq
  simp only [List.filter_filter, Bool.and_self] at inside
  exact (inside.eq_of_length same.symm).symm

/-- The order of the replacements, longest first. -/
def longestFirst (first second : Replacement) : Bool := decide (second.size ≤ first.size)

theorem longestFirst_trans (first second third : Replacement)
    (one : longestFirst first second = true) (other : longestFirst second third = true) :
    longestFirst first third = true := by
  unfold longestFirst at *
  rw [decide_eq_true_eq] at *
  exact other.trans one

theorem longestFirst_total (first second : Replacement) :
    (longestFirst first second || longestFirst second first) = true := by
  unfold longestFirst
  rw [Bool.or_eq_true, decide_eq_true_eq, decide_eq_true_eq]
  exact Nat.le_total _ _

end Order

namespace Statement

section Replacements

variable (bindings : OrderedMap Key Value)

theorem literals_eq : literals bindings =
    (bindings.entries.filterMap replacement?).map fun replacement =>
      (replacement.target, replacement.content) := by
  unfold literals replacement?
  rw [List.map_filterMap]
  simp only [Option.map_map]
  rfl

theorem pairwise_replacements :
    (replacements bindings).Pairwise fun first second => second.size ≤ first.size :=
  (List.pairwise_mergeSort longestFirst_trans longestFirst_total _).imp of_decide_eq_true

theorem mem_literals_iff (placeholder : List Char) :
    placeholder ∈ (literals bindings).map Prod.fst ↔
      ∃ replacement ∈ replacements bindings, replacement.target = placeholder := by
  unfold replacements
  rw [literals_eq, List.map_map]
  simp only [List.mem_map, List.mem_mergeSort, Function.comp_apply]

/-- The replacement that comes first for a placeholder has its first literal. -/
theorem lookup_literals (placeholder : List Char) :
    (literals bindings).lookup placeholder =
      ((replacements bindings).find? fun replacement =>
        replacement.target = placeholder).map Replacement.content := by
  have sorted : (replacements bindings).filter (fun replacement => replacement.target = placeholder) =
      (bindings.entries.filterMap replacement?).filter fun replacement =>
        replacement.target = placeholder := by
    refine filter_mergeSort longestFirst_trans longestFirst_total (fun first second here there => ?_) _
    have same : first.target = second.target :=
      (of_decide_eq_true here).trans (of_decide_eq_true there).symm
    unfold longestFirst Replacement.size
    rw [same, decide_eq_true_eq]
  rw [← List.head?_filter, sorted, List.head?_filter, literals_eq]
  induction bindings.entries.filterMap replacement? with
  | nil => rfl
  | cons replacement others ih =>
    rw [List.map_cons, List.lookup_cons, List.find?_cons, ih]
    by_cases same : replacement.target = placeholder
    · simp [same]
    · have apart : (placeholder == replacement.target) = false := beq_false_of_ne (Ne.symm same)
      simp [same, apart]

variable {bindings} {letters : List Char} {replacement : Replacement}

/-- **The first replacement that stands in a place is the longest, with the literal that was bound
first.** -/
theorem find?_replacements (found : (replacements bindings).find?
      (fun replacement => replacement.target.isPrefixOf letters) = some replacement) :
    replacement.target <+: letters ∧
    (∀ other ∈ (literals bindings).map Prod.fst, other <+: letters →
      other.length ≤ replacement.target.length) ∧
    (literals bindings).lookup replacement.target = some replacement.content := by
  obtain ⟨stands, before, after, split, earlier⟩ := List.find?_eq_some_iff_append.mp found
  have starts : replacement.target <+: letters := List.isPrefixOf_iff_prefix.mp stands
  have passed : ∀ other ∈ before, ¬ other.target <+: letters := by
    intro other member also
    have refused := earlier other member
    rw [List.isPrefixOf_iff_prefix.mpr also] at refused
    cases refused
  refine ⟨starts, fun other bound also => ?_, ?_⟩
  · obtain ⟨rival, member, rfl⟩ := (mem_literals_iff bindings other).mp bound
    have sorted := pairwise_replacements bindings
    rw [split] at member sorted
    rcases List.mem_append.mp member with there | there
    · exact absurd also (passed rival there)
    · rcases List.mem_cons.mp there with rfl | later
      · exact Nat.le_refl _
      · have smaller := (List.pairwise_cons.mp (List.pairwise_append.mp sorted).2.1).1 rival later
        by_contra longer
        have begins := List.prefix_of_prefix_length_le starts also (by omega)
        have larger := size_lt_of_prefix begins (by omega)
        omega
  · have first : (replacements bindings).find? (fun other => other.target = replacement.target) =
        some replacement := by
      refine List.find?_eq_some_iff_append.mpr
        ⟨decide_eq_true rfl, before, after, split, fun other member => ?_⟩
      have apart : other.target ≠ replacement.target := fun same =>
        passed other member (same ▸ starts)
      simpa using apart
    rw [lookup_literals, first]
    rfl

theorem find?_replacements_eq_none_iff : (replacements bindings).find?
      (fun replacement => replacement.target.isPrefixOf letters) = none ↔
    ∀ placeholder ∈ (literals bindings).map Prod.fst, ¬ placeholder <+: letters := by
  simp only [List.find?_eq_none, List.isPrefixOf_iff_prefix, mem_literals_iff]
  constructor
  · rintro none _ ⟨replacement, member, rfl⟩
    exact none replacement member
  · exact fun none replacement member => none _ ⟨replacement, member, rfl⟩

/-- The longest placeholder that stands in a place is the one that is found there, with its first
literal. -/
theorem exists_find?_replacements {placeholder literal : List Char}
    (stands : placeholder <+: letters)
    (longest : ∀ other ∈ (literals bindings).map Prod.fst, other <+: letters →
      other.length ≤ placeholder.length)
    (first : (literals bindings).lookup placeholder = some literal) :
    ∃ replacement, (replacements bindings).find?
      (fun replacement => replacement.target.isPrefixOf letters) = some replacement ∧
      replacement.target = placeholder ∧ replacement.content = literal := by
  have bound : placeholder ∈ (literals bindings).map Prod.fst := by
    obtain ⟨before, after, split, _⟩ := List.lookup_eq_some_iff.mp first
    simp [split]
  cases found : (replacements bindings).find?
      fun replacement => replacement.target.isPrefixOf letters with
  | none => exact absurd stands (find?_replacements_eq_none_iff.mp found placeholder bound)
  | some replacement =>
    obtain ⟨starts, longest', first'⟩ := find?_replacements found
    -- Two placeholders that begin one text are the same if neither is longer than the other.
    have target : replacement.target ∈ (literals bindings).map Prod.fst :=
      (mem_literals_iff bindings _).mpr ⟨replacement, List.mem_of_find?_eq_some found, rfl⟩
    have shorter := longest replacement.target target starts
    have same : replacement.target = placeholder :=
      (List.prefix_of_prefix_length_le starts stands shorter).eq_of_length
        (Nat.le_antisymm shorter (longest' placeholder bound stands))
    rw [same, first] at first'
    exact ⟨replacement, rfl, same, (Option.some.inj first').symm⟩

end Replacements

/-! ### The preview -/

section Preview

variable {bindings : OrderedMap Key Value} {letters filled : List Char}

theorem fillIn_of_none {letter : Char} {rest : List Char}
    (none : (replacements bindings).find?
      (fun replacement => replacement.target.isPrefixOf (letter :: rest)) = none) :
    fillIn (replacements bindings) (letter :: rest) =
      letter :: fillIn (replacements bindings) rest := by
  rw [fillIn, none]

theorem fillIn_of_some {replacement : Replacement} (found : (replacements bindings).find?
      (fun replacement => replacement.target.isPrefixOf letters) = some replacement) :
    fillIn (replacements bindings) letters =
      replacement.content ++
        fillIn (replacements bindings) (letters.drop replacement.target.length) := by
  cases letters with
  | nil =>
    have nothing := List.prefix_nil.mp (find?_replacements found).1
    exact absurd nothing replacement.solid
  | cons letter rest => rw [fillIn, found]

/-- The preview fills a text in. -/
theorem filledIn_fillIn (letters : List Char) :
    FilledIn (literals bindings) letters (fillIn (replacements bindings) letters) := by
  fun_induction fillIn (replacements bindings) letters with
  | case1 => exact .done
  | case2 letter rest replacement found ih =>
    obtain ⟨starts, longest, first⟩ := find?_replacements found
    have split := List.prefix_iff_eq_append.mp starts
    rw [← split] at longest
    have replaced := FilledIn.replaced longest first ih
    rwa [split] at replaced
  | case3 letter rest none ih => exact .copied (find?_replacements_eq_none_iff.mp none) ih

/-- **A text is filled in in the one way that the preview finds.** -/
theorem filledIn_iff :
    FilledIn (literals bindings) letters filled ↔
      filled = fillIn (replacements bindings) letters := by
  refine ⟨fun filledIn => ?_, fun same => same ▸ filledIn_fillIn letters⟩
  induction filledIn with
  | done => rw [fillIn]
  | copied none _ ih => rw [fillIn_of_none (find?_replacements_eq_none_iff.mpr none), ← ih]
  | @replaced placeholder literal rest filled longest first _ ih =>
    obtain ⟨replacement, found, rfl, rfl⟩ :=
      exists_find?_replacements (List.prefix_append placeholder rest) longest first
    rw [fillIn_of_some found, List.drop_left, ← ih]

end Preview

/-- **A preview is the text of the statement filled in.** From left to right, the longest placeholder
in a place gives way to the literal that was bound to it first, and all else stays. Every
placeholder takes up a letter at least, so that the end of the text is reached, and in one way
only. -/
theorem preview_filled_in {statement : Statement} {text : String}
    (written : statement.sql = .ok text) :
    (∀ placeholder ∈ (literals statement.bindings).map Prod.fst, placeholder ≠ []) ∧
    ∃ preview, statement.preview = .ok preview ∧
      ∀ filled, FilledIn (literals statement.bindings) text.toList filled ↔
        filled = preview.toList := by
  refine ⟨fun placeholder bound => ?_, ?_⟩
  · obtain ⟨replacement, _, rfl⟩ := (mem_literals_iff _ placeholder).mp bound
    exact replacement.solid
  · refine ⟨String.ofList (fillIn (replacements statement.bindings) text.toList), ?_,
      fun filled => ?_⟩
    · unfold preview
      rw [written]
      rfl
    · rw [String.toList_ofList]
      exact filledIn_iff

/-- One name begins another one, two keys have one placeholder, a name is empty, and a literal has
the placeholder of another value in it. -/
def overlapping : Statement :=
  ofQuery ((∅ : Query).run [.select [":id", ":id_list", ":größe", ":"],
    .bind (.named "id") (.int 4), .bind (.named ":id") (.int 5),
    .bind (.named "größe") (.text ":id"), .bind (.named "") .null,
    .bind (.named "id_list") (.text "1,2"), .bind (.positional 0) (.int 6)])

theorem preview_filled_in_overlapping :
    overlapping.sql = .ok "SELECT :id, :id_list, :größe, :" ∧
    overlapping.preview = .ok "SELECT 4, '1,2', ':id', NULL" ∧
    ∀ filled, FilledIn (literals overlapping.bindings) "SELECT :id, :id_list, :größe, :".toList
      filled ↔ filled = "SELECT 4, '1,2', ':id', NULL".toList := by
  have written : overlapping.sql = .ok "SELECT :id, :id_list, :größe, :" := by cbv
  have shown : overlapping.preview = .ok "SELECT 4, '1,2', ':id', NULL" := by cbv
  obtain ⟨_, preview, answer, only⟩ := preview_filled_in written
  cases answer.symm.trans shown
  exact ⟨written, shown, only⟩

end Statement

end WithClause
