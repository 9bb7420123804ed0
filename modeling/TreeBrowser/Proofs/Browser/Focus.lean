import TreeBrowser.Proofs.Browser.Step
import TreeBrowser.Proofs.Selection.Focus
import TreeBrowser.Proofs.Workspace.Samples

/-!
# Focus and selection

The focused entry is selected, with one exception: a range gesture replaces the last range by a new
one, and when an end of the new one is out of sight it may not reach the entry from which it is
drawn. That entry keeps the focus and is selected no longer, until a gesture moves the focus or
selects the entry again.
-/

namespace TreeBrowser

namespace Browser

variable {b : Browser} {action : Action} {id : EntryId}

/-- A range gesture that lands on `other` draws a range that reaches back to `id`: both are rows, or
`id` is one and the range is drawn from the first row for want of the other. -/
def Reaches (b : Browser) (id other : EntryId) : Prop :=
  id ∈ b.rowIds ∧ (other ∈ b.rowIds ∨ b.missingEndpoint = .clampToStart)

/-- A range gesture is drawn from an entry and does not reach it, and the entry is selected by the
last range alone, or not at all. -/
def DropsAnchor (b : Browser) (action : Action) (id : EntryId) : Prop :=
  ∃ other modifiers, b.landing? action = some (other, modifiers) ∧
    modifiers.metaKey = false ∧ modifiers.shiftKey = true ∧
    (b.selection.focused <|> b.rowIds.head?) = some id ∧ ¬ b.Reaches id other ∧
    (id ∈ b.selection.lastRange ∨ id ∉ b.selection.selected)

/-- An action takes the focus away from an entry that is not selected, or selects it: it lets go of
the selection, it brings a workspace in which the entry is not, or it is a plain click, a meta click
that adds an entry, or a range gesture that reaches the entry. -/
def Reconciles (b : Browser) (action : Action) (id : EntryId) : Prop :=
  b.LetsGo action ∨
  (∃ workspace, action = .replaceWorkspace workspace ∧
    (workspace.id ≠ b.workspace.id ∨ workspace.tree.contains id = false)) ∨
  ∃ other modifiers, b.landing? action = some (other, modifiers) ∧
    if modifiers.metaKey then other ∉ b.selection.selected
    else modifiers.shiftKey = true → b.Reaches id other

/-! ## One step -/

theorem landing?_eq_none_of_letsGo (h : b.LetsGo action) : b.landing? action = none := by
  obtain rfl | ⟨id, rfl, -⟩ := h <;> rfl

theorem focusesUnselected_land_iff {other : EntryId} {modifiers : Modifiers}
    (hlands : b.landing? action = some (other, modifiers)) :
    (b.clicked other modifiers).FocusesUnselected id ↔
      b.DropsAnchor action id ∨ b.selection.FocusesUnselected id ∧ ¬ b.Reconciles action id := by
  have hdrops : b.DropsAnchor action id ↔
      modifiers.metaKey = false ∧ modifiers.shiftKey = true ∧
        (b.selection.focused <|> b.rowIds.head?) = some id ∧ ¬ b.Reaches id other ∧
        (id ∈ b.selection.lastRange ∨ id ∉ b.selection.selected) := by
    simp [DropsAnchor, hlands]
  have hreconciles : b.Reconciles action id ↔
      if modifiers.metaKey then other ∉ b.selection.selected
      else modifiers.shiftKey = true → b.Reaches id other := by
    have hkeeps : ¬ b.LetsGo action := fun h => by
      rw [landing?_eq_none_of_letsGo h] at hlands
      cases hlands
    have hstays : ∀ workspace, action ≠ .replaceWorkspace workspace := by
      rintro workspace rfl
      cases hlands
    simp [Reconciles, hkeeps, hstays, hlands]
  rw [hdrops, hreconciles, clicked]
  cases modifiers.metaKey with
  | true =>
    rw [if_pos rfl, if_pos rfl, Selection.focusesUnselected_metaClick_iff]
    simp
  | false =>
    cases modifiers.shiftKey with
    | true =>
      simp only [Bool.false_eq_true, if_false, if_true, forall_const, true_and]
      rw [Selection.focusesUnselected_shiftClick_iff]
      constructor
      · exact Or.inl
      · rintro (h | ⟨⟨hfocused, hselected⟩, hmisses⟩)
        · exact h
        · exact ⟨by rw [hfocused]; rfl, hmisses, Or.inr hselected⟩
    | false => simp [Selection.not_focusesUnselected_click]

theorem focusesUnselected_replaceWorkspace_iff {workspace : Workspace} :
    (b.replaceWorkspace workspace).1.selection.FocusesUnselected id ↔
      b.selection.FocusesUnselected id ∧
        ¬ (workspace.id ≠ b.workspace.id ∨ workspace.tree.contains id = false) := by
  by_cases hid : workspace.id = b.workspace.id
  · have hselection : (b.replaceWorkspace workspace).1.selection =
        b.selection.retainExisting workspace.tree := by
      rw [replaceWorkspace, if_pos hid]
      rfl
    rw [hselection, Selection.focusesUnselected_retainExisting_iff]
    simp [hid]
  · have hselection : (b.replaceWorkspace workspace).1.selection = .empty := by
      rw [replaceWorkspace, if_neg hid]
      rfl
    rw [hselection]
    simp [hid, Selection.not_focusesUnselected_empty]

/-- What no gesture lands on, lets go or replaces stays selected as it is. -/
theorem selection_dispatch_of_idle (hlands : b.landing? action = none)
    (hkeeps : ¬ b.LetsGo action) (hstays : ∀ workspace, action ≠ .replaceWorkspace workspace) :
    (b.dispatch action).1.selection = b.selection := by
  have hmoves := b.moves_dispatch action
  generalize (b.dispatch action).1 = b', (b.dispatch action).2.changed = changed at hmoves ⊢
  cases hmoves with
  | lands h =>
    rw [h] at hlands
    cases hlands
  | letsGo h => exact absurd h hkeeps
  | replaces h => exact absurd h (hstays _)
  | opens | sorts | edits | stays => rfl

/-- The focus is on an entry that is not selected when a range gesture has just dropped it, or when
it was so before and the step does not bring focus and selection together again. -/
theorem focusesUnselected_dispatch_iff (b : Browser) (action : Action) :
    (b.dispatch action).1.selection.FocusesUnselected id ↔
      b.DropsAnchor action id ∨ b.selection.FocusesUnselected id ∧ ¬ b.Reconciles action id := by
  cases hlands : b.landing? action with
  | some landing =>
    rw [dispatch_of_landing? hlands]
    exact focusesUnselected_land_iff hlands
  | none =>
    have hdrops : ¬ b.DropsAnchor action id := by simp [DropsAnchor, hlands]
    by_cases hletsGo : b.LetsGo action
    · have hempty : (b.dispatch action).1.selection = .empty := by
        obtain rfl | ⟨id, rfl, heditable⟩ := hletsGo
        · rfl
        · simp only [dispatch, remove, heditable]
          rfl
      simp [hempty, hdrops, Reconciles, hletsGo, Selection.not_focusesUnselected_empty]
    · by_cases hreplaces : ∃ workspace, action = .replaceWorkspace workspace
      · obtain ⟨workspace, rfl⟩ := hreplaces
        show (b.replaceWorkspace workspace).1.selection.FocusesUnselected id ↔ _
        rw [focusesUnselected_replaceWorkspace_iff]
        simp [hdrops, Reconciles, hlands, hletsGo]
      · rw [not_exists] at hreplaces
        rw [selection_dispatch_of_idle hlands hletsGo hreplaces]
        simp [hdrops, Reconciles, hlands, hletsGo, hreplaces]

/-! ## Whole runs -/

/-- Whatever is done to a browser, the entry that has the focus is selected, unless a range gesture
that was drawn from it did not reach it, and since then no action has taken the focus away from it
or selected it again. -/
theorem run_focus_unselected_iff (workspace : Workspace) (settings : Settings)
    (actions : List Action) (id : EntryId) :
    let b := start workspace settings
    (b.run actions).selection.focused = some id ∧ id ∉ (b.run actions).selection.selected ↔
      ∃ before action after, actions = before ++ action :: after ∧
        (b.run before).DropsAnchor action id ∧
        ∀ kept next, kept ++ [next] <+: after →
          ¬ (b.run (before ++ action :: kept)).Reconciles next id :=
  holds_after_run_iff (fun b => b.selection.FocusesUnselected id) focusesUnselected_dispatch_iff
    Selection.not_focusesUnselected_empty

/-- A file in an open folder is focused and a range is drawn from it; the folder is closed, and the
next range does not reach the file any more. Neither policy keeps the file selected. -/
theorem focus_unselected_by_hidden_anchor :
    let b (policy : MissingEndpoint) :=
      (start (workspaceOf twoFoldersTree) { missingEndpoint := policy }).run
        [.expand "a", .click "x" .none, .click "c" .onlyShift, .collapse "a", .click "c" .onlyShift]
    (b .empty).selection = ⟨[], some "x", []⟩ ∧
      (b .clampToStart).selection = ⟨["a", "b", "c"], some "x", ["a", "b", "c"]⟩ := by
  intro b
  let opened (policy : MissingEndpoint) :=
    (start (workspaceOf twoFoldersTree) { missingEndpoint := policy }).run
      [.expand "a", .click "x" .none]
  let closed (policy : MissingEndpoint) := (opened policy).run [.click "c" .onlyShift, .collapse "a"]
  have hopened (policy : MissingEndpoint) : (opened policy).rowIds = ["a", "x", "b", "c"] := by
    rw [rowIds, ← Listing.ids_unsorted named_in_order_twoFolders]
    rfl
  have hclosed (policy : MissingEndpoint) : (closed policy).rowIds = ["a", "b", "c"] := by
    rw [rowIds, ← Listing.ids_unsorted named_in_order_twoFolders]
    rfl
  have hfirst (policy : MissingEndpoint) : (closed policy).selection =
      (opened policy).selection.shiftClick ["a", "x", "b", "c"] "c" policy := by
    rw [← hopened policy]
    rfl
  have hsecond (policy : MissingEndpoint) : (b policy).selection =
      (closed policy).selection.shiftClick ["a", "b", "c"] "c" policy := by
    rw [← hclosed policy]
    rfl
  rw [hsecond, hsecond, hfirst, hfirst]
  decide +kernel

end Browser

end TreeBrowser
