import TreeBrowser.Proofs.Selection.Range

/-!
# The focus of a selection

Which gestures leave the focus on an entry that is not selected, and which bring focus and selection
together again.
-/

namespace TreeBrowser

namespace Selection

variable {α : Type} {s : Selection} {id other : EntryId}

def FocusesUnselected (s : Selection) (id : EntryId) : Prop :=
  s.focused = some id ∧ id ∉ s.selected

theorem not_focusesUnselected_empty : ¬ Selection.empty.FocusesUnselected id :=
  fun h => nomatch h.1

theorem not_focusesUnselected_click : ¬ (s.click other).FocusesUnselected id := by
  rintro ⟨hfocused, hselected⟩
  cases hfocused
  exact hselected (List.mem_singleton.2 rfl)

theorem focusesUnselected_metaClick_iff :
    (s.metaClick other).FocusesUnselected id ↔ s.FocusesUnselected id ∧ other ∈ s.selected := by
  by_cases hother : other ∈ s.selected
  · rw [metaClick_of_mem hother]
    constructor
    · rintro ⟨hfocused, hkept⟩
      dsimp only at hfocused hkept
      split at hfocused
      · exact absurd (List.mem_of_getLast? hfocused) hkept
      · rename_i hkeeps
        have hne : id ≠ other := by
          rintro rfl
          simp [isFocused, hfocused] at hkeeps
        refine ⟨⟨hfocused, fun hselected => hkept ?_⟩, hother⟩
        simpa [hne] using hselected
    · rintro ⟨⟨hfocused, hselected⟩, -⟩
      have hkeeps : s.isFocused other = false := by
        rw [isFocused, hfocused, beq_eq_false_iff_ne]
        rintro ⟨⟩
        exact hselected hother
      rw [hkeeps]
      exact ⟨hfocused, fun hkept => hselected (List.mem_of_mem_filter hkept)⟩
  · rw [metaClick_of_not_mem hother]
    simp only [hother, and_false, iff_false]
    rintro ⟨hfocused, hselected⟩
    cases hfocused
    simp at hselected

/-- After a range gesture, the entry from which the range is drawn has the focus. It is not selected
exactly when the new range does not reach it, and it was in the last range or was not selected
before. -/
theorem focusesUnselected_shiftClick_iff {rows : List EntryId} {policy : MissingEndpoint} :
    (s.shiftClick rows other policy).FocusesUnselected id ↔
      (s.focused <|> rows.head?) = some id ∧
        ¬ (id ∈ rows ∧ (other ∈ rows ∨ policy = .clampToStart)) ∧
        (id ∈ s.lastRange ∨ id ∉ s.selected) := by
  unfold shiftClick
  cases hanchor : s.focused <|> rows.head? with
  | none =>
    cases hfocused : s.focused with
    | some focused => simp [hfocused] at hanchor
    | none => simp [FocusesUnselected, hfocused]
  | some anchor =>
    simp only [FocusesUnselected, Option.some.injEq]
    refine and_congr_right ?_
    rintro rfl
    rw [mem_mergeRange_iff, mem_rangeBetween_iff]
    tauto

theorem focusesUnselected_retainExisting_iff {t : Tree α} :
    (s.retainExisting t).FocusesUnselected id ↔
      s.FocusesUnselected id ∧ t.contains id = true := by
  simp only [FocusesUnselected, retainExisting, Option.filter_eq_some_iff, List.mem_filter]
  tauto

end Selection

end TreeBrowser
