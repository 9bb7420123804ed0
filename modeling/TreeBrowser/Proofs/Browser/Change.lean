import TreeBrowser.Proofs.Browser.Step
import TreeBrowser.Proofs.Selection.Range
import TreeBrowser.Proofs.Workspace.Samples

/-!
# Changes

A browser says of every step whether it has changed what is shown, and what it says is right. Whoever
shows a browser may rely on it: a step that says nothing has changed leaves the selection, the open
folders, the order and the editing as they were, and an action whose condition is not met leaves
everything as it was.
-/

namespace TreeBrowser

namespace Browser

variable {b b' : Browser} {action : Action} {changed : Bool}

/-- The second state shows what the first one shows of the same workspace. The cursor is not seen. -/
structure LooksLike (b' b : Browser) : Prop where
  selected : b'.selection.selected = b.selection.selected
  focused : b'.selection.focused = b.selection.focused
  lastRange : b'.selection.lastRange = b.selection.lastRange
  expanded : ∀ id, b'.expanded.contains id = true ↔ b.expanded.contains id = true
  sortColumn : b'.columns.sortColumn = b.columns.sortColumn
  descending : b'.columns.descending = b.columns.descending
  editing : b'.editing = b.editing

/-- The second state is about the same workspace, in the same columns, under the same policy. -/
structure SameFrame (b' b : Browser) : Prop where
  workspace : b'.workspace = b.workspace
  columns : b'.columns.list = b.columns.list
  missingEndpoint : b'.missingEndpoint = b.missingEndpoint

/-! ## What differs after each move -/

theorem LooksLike.refl (b : Browser) : b.LooksLike b :=
  ⟨rfl, rfl, rfl, Expansion.Same.refl _, rfl, rfl, rfl⟩

theorem looksLike_selection_iff {selection : Selection} {cursor : Option EntryId} :
    LooksLike { b with selection, cursor } b ↔ selection = b.selection := by
  constructor
  · rintro ⟨hselected, hfocused, hlastRange, -⟩
    cases selection
    cases hb : b.selection
    simp only [hb] at hselected hfocused hlastRange
    subst hselected hfocused hlastRange
    rfl
  · rintro rfl
    exact ⟨rfl, rfl, rfl, Expansion.Same.refl _, rfl, rfl, rfl⟩

theorem looksLike_expanded_iff {expanded : Expansion} :
    LooksLike { b with expanded } b ↔ expanded.Same b.expanded :=
  ⟨fun h => h.expanded, fun h => ⟨rfl, rfl, rfl, h, rfl, rfl, rfl⟩⟩

theorem looksLike_editing_iff {editing : Option EntryId} :
    LooksLike { b with editing } b ↔ editing = b.editing :=
  ⟨fun h => h.editing, fun h => ⟨rfl, rfl, rfl, Expansion.Same.refl _, rfl, rfl, h⟩⟩

theorem Moves.changed_iff (h : b.Moves action b' changed)
    (haction : ∀ workspace, action ≠ .replaceWorkspace workspace) :
    changed = true ↔ ¬ b'.LooksLike b := by
  cases h with
  | lands => rw [bne_iff_ne, looksLike_selection_iff]
  | letsGo => rw [bne_iff_ne, looksLike_selection_iff]
  | opens hchanged => rw [hchanged, looksLike_expanded_iff]
  | sorts hhas =>
    simp only [true_iff]
    exact fun hlooks => Columns.order_click_ne hhas ⟨hlooks.sortColumn, hlooks.descending⟩
  | edits => rw [bne_iff_ne, looksLike_editing_iff]
  | replaces hreplaces => exact absurd hreplaces (haction _)
  | stays => simp [LooksLike.refl]

theorem Moves.sameFrame (h : b.Moves action b' changed)
    (haction : ∀ workspace, action ≠ .replaceWorkspace workspace) : b'.SameFrame b := by
  refine ⟨h.workspace haction, h.list_columns, ?_⟩
  cases h with
  | replaces hreplaces => exact absurd hreplaces (haction _)
  | lands | letsGo | opens | sorts | edits | stays => rfl

theorem Moves.cursor (h : b.Moves action b' changed)
    (haction : ∀ workspace, action ≠ .replaceWorkspace workspace) :
    b'.cursor = b.cursor ∨
      (∃ id modifiers, b.landing? action = some (id, modifiers) ∧ b.tree.contains id = true) ∨
      b.LetsGo action := by
  cases h with
  | lands hlands => exact Or.inr (Or.inl ⟨_, _, hlands, contains_of_landing? hlands⟩)
  | letsGo hletsGo => exact Or.inr (Or.inr hletsGo)
  | replaces hreplaces => exact absurd hreplaces (haction _)
  | opens | sorts | edits | stays => exact Or.inl rfl

/-! ## Actions that are refused -/

/-- The row of the cursor, or of the focused entry when there is no cursor. -/
def StartsFrom (b : Browser) (row : Nat) : Prop :=
  ∃ id, (b.cursor = some id ∨ b.cursor = none ∧ b.selection.focused = some id) ∧
    b.rowIds[row]? = some id

/-- The condition of an action is not met. -/
def Refuses (b : Browser) : Action → Prop
  | .click id _ => b.tree.contains id = false
  | .focusAdjacent delta _ =>
    ∃ row, b.StartsFrom row ∧
      (row + delta = row ∨ row + delta < 0 ∨ b.rowIds.length ≤ row + delta)
  | .expand id => b.tree.isNode id = false
  | .collapse id => b.tree.contains id = false
  | .toggleExpanded id => b.tree.contains id = false
  | .activate id => b.tree.contains id = false
  | .sortBy column => b.columns.has column = false
  | .drop dragged target =>
    dragged ∉ b.selection.selected ∨ b.tree.isNode target = false ∨
      ∃ id ∈ b.selection.selected, target = id ∨ b.tree.isDescendantOf target id = true
  | .beginRename id => b.tree.contains id = false ∨ id = b.tree.root.id
  | .remove id => b.tree.contains id = false ∨ id = b.tree.root.id
  | .createFolder name => Text.trim name = "" ∨ 1 < b.selection.selected.length
  | _ => False

theorem StartsFrom.originRow? {row : Nat} (h : b.StartsFrom row) : b.originRow? = some row := by
  obtain ⟨id, hid, hrow⟩ := h
  have horigin : (b.cursor <|> b.selection.focused) = some id := by
    rcases hid with hid | ⟨hcursor, hfocused⟩
    · rw [hid]
      rfl
    · rw [hcursor, hfocused]
      rfl
  obtain ⟨hlt, rfl⟩ := List.getElem?_eq_some_iff.1 hrow
  rw [Browser.originRow?, horigin]
  exact idxOf?_getElem b.listing.nodup_ids hlt

theorem isEditable_eq_false {id : EntryId}
    (h : b.tree.contains id = false ∨ id = b.tree.root.id) : b.isEditable id = false := by
  rw [Bool.eq_false_iff, ne_eq, isEditable_iff]
  rintro ⟨hcontains, hne⟩
  rcases h with h | h
  · rw [h] at hcontains
    cases hcontains
  · exact hne h

theorem steppedRow?_eq_none {delta : Int} {row : Nat} (h : b.StartsFrom row)
    (hrow : row + delta = row ∨ row + delta < 0 ∨ b.rowIds.length ≤ row + delta) :
    b.steppedRow? delta = none := by
  rw [steppedRow?_of_originRow? h.originRow?]
  split
  · rfl
  · rename_i hgoes
    rw [List.getElem?_eq_none_iff]
    omega

/-- A drop of what is not selected, into no folder, or into what is dragged along is no move. -/
theorem drop_eq_unchanged {dragged target : EntryId} (h : b.Refuses (.drop dragged target)) :
    b.drop dragged target = (b, .unchanged) := by
  unfold drop
  cases heffects : b.dropEffects dragged target with
  | error fault => rfl
  | ok effects =>
    obtain ⟨ids, hids, hcheck, -⟩ := dropEffects_eq_ok_iff.1 heffects
    obtain ⟨hdragged, rfl⟩ := Tree.idsToMove_eq_ok_iff.1 hids
    rcases h with h | h | ⟨id, hid, hbelow⟩
    · exact absurd hdragged h
    · rw [(Tree.checkMove_eq_ok_iff.1 hcheck).1] at h
      cases h
    · obtain ⟨hne, hdesc⟩ := Tree.safe_of_checkMove_topmost hcheck hid
      rcases hbelow with rfl | hbelow
      · exact absurd rfl hne
      · rw [hdesc] at hbelow
        cases hbelow

theorem setExpanded_eq_unchanged {next : Expansion} {changed : Bool} (hnext : next = b.expanded)
    (hchanged : changed = false) : b.setExpanded next changed = (b, .unchanged) := by
  rw [hnext, hchanged]
  rfl

/-- In a sound state nothing happens when an action is refused. -/
theorem dispatch_of_refuses (hb : b.Sound) (h : b.Refuses action) :
    b.dispatch action = (b, .unchanged) := by
  cases action with
  | click id modifiers => exact if_neg (Bool.eq_false_iff.1 h)
  | focusAdjacent delta modifiers =>
    obtain ⟨row, hstarts, hrow⟩ := h
    simp only [dispatch, focusAdjacent, steppedRow?_eq_none hstarts hrow]
  | expand id =>
    have hidle : b.expanded.expands b.tree id = false := by
      rw [Expansion.expands, h, Bool.false_and]
    exact setExpanded_eq_unchanged (Expansion.expand_eq_self h) hidle
  | collapse id =>
    have hclosed := hb.expanded.contains_eq_false (Tree.isNode_eq_false h)
    exact setExpanded_eq_unchanged (Expansion.collapse_eq_self hclosed) hclosed
  | toggleExpanded id =>
    have hnode := Tree.isNode_eq_false h
    have hclosed := hb.expanded.contains_eq_false hnode
    apply setExpanded_eq_unchanged
    · rw [Expansion.toggle, hclosed]
      exact Expansion.expand_eq_self hnode
    · rw [Expansion.toggles, hclosed, Expansion.expands, hnode]
      rfl
  | activate id =>
    have hget : b.tree.get? id = none := Option.not_isSome_iff_eq_none.1 (Bool.eq_false_iff.1 h)
    simp only [dispatch, activate, hget]
  | sortBy column =>
    have hlacks : b.columns.has column = false := h
    have hclick : b.columns.click column = b.columns := by simp [Columns.click, hlacks]
    simp only [dispatch, sortBy, hclick, hlacks]
    rfl
  | drop dragged target => exact drop_eq_unchanged h
  | beginRename id => exact if_neg (Bool.eq_false_iff.1 (isEditable_eq_false h))
  | remove id => exact if_neg (Bool.eq_false_iff.1 (isEditable_eq_false h))
  | createFolder name => exact if_pos (by simpa [Refuses] using h)
  | _ => exact absurd h id

/-! ## Every step -/

/-- In every reachable state, an action that brings no other workspace says that it has changed
something exactly when the selection, the open folders, the order or the editing differ afterwards.
The workspace, its columns and the policy never differ, and the cursor only when a gesture lands on
an entry or the selection is let go. An action that is refused leaves the whole state as it was and
asks for nothing. -/
theorem changed_is_exact (hb : b.Reachable) (action : Action)
    (haction : ∀ workspace, action ≠ .replaceWorkspace workspace) :
    let b' := (b.dispatch action).1
    let outcome := (b.dispatch action).2
    (outcome.changed = true ↔ ¬ b'.LooksLike b) ∧
    b'.SameFrame b ∧
    (b'.cursor = b.cursor ∨
      (∃ id modifiers, b.landing? action = some (id, modifiers) ∧ b.tree.contains id = true) ∨
      b.LetsGo action) ∧
    (b.Refuses action → b' = b ∧ outcome = ⟨[], false⟩) := by
  intro b' outcome
  have hmoves := b.moves_dispatch action
  refine ⟨hmoves.changed_iff haction, hmoves.sameFrame haction, hmoves.cursor haction, ?_⟩
  intro hrefuses
  have heq := dispatch_of_refuses hb.sound hrefuses
  exact ⟨congrArg Prod.fst heq, congrArg Prod.snd heq⟩

theorem unchanged_by_drop_into_itself :
    let b := (start (workspaceOf outerTree) {}).run [.click "a" .none]
    b.Reachable ∧ b.Refuses (.drop "a" "a") ∧ (b.dispatch (.drop "a" "a")).1 = b ∧
      (b.dispatch (.drop "a" "a")).2 = ⟨[], false⟩ := by
  have haction (workspace : Workspace) : Action.drop "a" "a" ≠ .replaceWorkspace workspace := nofun
  intro b
  have hreachable : b.Reachable := (Reachable.start _ _).run _
  have hrefuses : b.Refuses (.drop "a" "a") :=
    Or.inr (Or.inr ⟨"a", List.mem_singleton.2 rfl, Or.inl rfl⟩)
  obtain ⟨-, -, -, hunchanged⟩ := changed_is_exact hreachable (.drop "a" "a") haction
  exact ⟨hreachable, hrefuses, hunchanged hrefuses⟩

end Browser

end TreeBrowser
