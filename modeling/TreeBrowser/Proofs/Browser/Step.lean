import TreeBrowser.Proofs.Browser.Effects
import TreeBrowser.Proofs.Browser.Sound

/-!
# What a step can do

Whatever action is dispatched, what becomes of the state is one of a few moves. Clicks and steps on
the keyboard come to the same move once it is known which entry they land on, and so do all ways of
opening and closing folders, and all ways of beginning and ending the editing of a name.
-/

namespace TreeBrowser

namespace Browser

variable {b : Browser} {action : Action} {id : EntryId} {modifiers : Modifiers}

/-- The entry on which a gesture lands, with the keys that are held down. A click may land on an
entry that is not shown, a step on the keyboard goes from row to row. -/
def landing? (b : Browser) : Action → Option (EntryId × Modifiers)
  | .click id modifiers => if b.tree.contains id then some (id, modifiers) else none
  | .focusAdjacent delta modifiers => (b.steppedRow? delta).map fun id => (id, modifiers)
  | _ => none

def land (b : Browser) (id : EntryId) (modifiers : Modifiers) : Browser × Outcome :=
  b.setSelection (b.clicked id modifiers) (some id) (clickEffects id modifiers)

/-! ## Steps on the keyboard -/

theorem steppedRow?_of_originRow? {delta : Int} {row : Nat} (h : b.originRow? = some row) :
    b.steppedRow? delta =
      if row + delta < 0 ∨ row + delta = row then none else b.rowIds[(row + delta).toNat]? := by
  simp only [steppedRow?, h, Bool.or_eq_true, decide_eq_true_eq, beq_iff_eq, Option.some.injEq]
  by_cases hneg : row + delta < 0
  · rw [if_pos (Or.inl hneg), if_pos (Or.inl hneg)]
  · have hsame : row = (row + delta).toNat ↔ row + delta = row := by omega
    simp only [hneg, hsame, false_or]

theorem steppedRow?_of_originRow?_eq_none {delta : Int} (h : b.originRow? = none) :
    b.steppedRow? delta = b.rowIds[0]? := by
  simp [steppedRow?, h]

theorem mem_rowIds_of_steppedRow? {delta : Int} (h : b.steppedRow? delta = some id) :
    id ∈ b.rowIds := by
  cases horigin : b.originRow? with
  | none =>
    rw [steppedRow?_of_originRow?_eq_none horigin] at h
    exact List.mem_of_getElem? h
  | some row =>
    rw [steppedRow?_of_originRow? horigin] at h
    split at h
    · cases h
    · exact List.mem_of_getElem? h

/-! ## Landing -/

theorem click_eq_land (h : b.tree.contains id = true) :
    b.click id modifiers = b.land id modifiers :=
  if_pos h

theorem landing?_click_eq_some_iff {other : EntryId} {keys : Modifiers} :
    b.landing? (.click id modifiers) = some (other, keys) ↔
      b.tree.contains id = true ∧ id = other ∧ modifiers = keys := by
  rw [landing?]
  split <;> simp [*]

theorem landing?_focusAdjacent_eq_some_iff {delta : Int} {keys : Modifiers} :
    b.landing? (.focusAdjacent delta modifiers) = some (id, keys) ↔
      b.steppedRow? delta = some id ∧ modifiers = keys := by
  simp [landing?]

theorem contains_of_landing? (h : b.landing? action = some (id, modifiers)) :
    b.tree.contains id = true := by
  cases action with
  | click =>
    obtain ⟨hid, rfl, -⟩ := landing?_click_eq_some_iff.1 h
    exact hid
  | focusAdjacent =>
    obtain ⟨hrow, -⟩ := landing?_focusAdjacent_eq_some_iff.1 h
    exact contains_of_mem_rowIds (mem_rowIds_of_steppedRow? hrow)
  | _ => cases h

theorem dispatch_of_landing? (h : b.landing? action = some (id, modifiers)) :
    b.dispatch action = b.land id modifiers := by
  have hid := contains_of_landing? h
  cases action with
  | click =>
    obtain ⟨-, rfl, rfl⟩ := landing?_click_eq_some_iff.1 h
    exact click_eq_land hid
  | focusAdjacent delta keys =>
    obtain ⟨hrow, rfl⟩ := landing?_focusAdjacent_eq_some_iff.1 h
    simp only [dispatch, focusAdjacent, hrow]
    exact click_eq_land hid
  | _ => cases h

theorem dispatch_click_of_landing?_eq_none (h : b.landing? (.click id modifiers) = none) :
    b.dispatch (.click id modifiers) = (b, .unchanged) := by
  simp only [landing?] at h
  split at h
  · cases h
  · rename_i hid
    exact if_neg hid

theorem dispatch_focusAdjacent_of_landing?_eq_none {delta : Int}
    (h : b.landing? (.focusAdjacent delta modifiers) = none) :
    b.dispatch (.focusAdjacent delta modifiers) = (b, .unchanged) := by
  have hrow : b.steppedRow? delta = none := Option.map_eq_none_iff.1 h
  simp only [dispatch, focusAdjacent, hrow]

/-! ## Moves -/

/-- The selection is let go, be it by itself or because an entry is removed. -/
def LetsGo (b : Browser) (action : Action) : Prop :=
  action = .clearFocus ∨ ∃ id, action = .remove id ∧ b.isEditable id = true

inductive Moves (b : Browser) (action : Action) : Browser → Bool → Prop
  | lands {id : EntryId} {modifiers : Modifiers} :
      b.landing? action = some (id, modifiers) →
      b.Moves action { b with selection := b.clicked id modifiers, cursor := some id }
        (b.clicked id modifiers != b.selection)
  | letsGo :
      b.LetsGo action →
      b.Moves action { b with selection := .empty, cursor := none } (Selection.empty != b.selection)
  | opens {expanded : Expansion} {changed : Bool} :
      (changed = true ↔ ¬ expanded.Same b.expanded) → b.Moves action { b with expanded } changed
  | sorts {column : String} :
      b.columns.has column = true →
      b.Moves action { b with columns := b.columns.click column } true
  | edits {editing : Option EntryId} :
      b.Moves action { b with editing } (editing != b.editing)
  | replaces {workspace : Workspace} :
      action = .replaceWorkspace workspace →
      b.Moves action (b.replaceWorkspace workspace).1 true
  | stays : b.Moves action b false

theorem Moves.of_landing? (h : b.landing? action = some (id, modifiers)) :
    b.Moves action (b.dispatch action).1 (b.dispatch action).2.changed := by
  rw [dispatch_of_landing? h]
  exact .lands h

theorem moves_toggle (b : Browser) (action : Action) (id : EntryId) :
    b.Moves action (b.toggle id).1 (b.toggle id).2.changed :=
  .opens Expansion.toggles_iff

theorem moves_activate (b : Browser) (action : Action) (id : EntryId) :
    b.Moves action (b.activate id).1 (b.activate id).2.changed := by
  unfold activate
  split
  · exact .stays
  · split
    · exact b.moves_toggle action id
    · split
      · exact .stays
      · split <;> exact .stays

theorem moves_sortBy (b : Browser) (action : Action) (column : String) :
    b.Moves action (b.sortBy column).1 (b.sortBy column).2.changed := by
  cases hhas : b.columns.has column with
  | true =>
    have hmove : b.Moves action (b.sortBy column).1 true := .sorts hhas
    rwa [← hhas] at hmove
  | false =>
    have hclick : b.columns.click column = b.columns := by simp [Columns.click, hhas]
    rw [sortBy, hclick, hhas]
    exact .stays

theorem moves_drop (b : Browser) (action : Action) (dragged target : EntryId) :
    b.Moves action (b.drop dragged target).1 (b.drop dragged target).2.changed := by
  unfold drop
  split <;> exact .stays

theorem moves_beginRename (b : Browser) (action : Action) (id : EntryId) :
    b.Moves action (b.beginRename id).1 (b.beginRename id).2.changed := by
  unfold beginRename
  split
  · have hsame : (b.editing != some id) = (some id != b.editing) := bne_comm
    rw [hsame]
    exact .edits
  · exact .stays

theorem moves_finishRename (b : Browser) (action : Action) (name : String) :
    b.Moves action (b.finishRename name).1 (b.finishRename name).2.changed := by
  unfold finishRename
  split
  · exact .stays
  · rename_i id hediting
    have hmove : b.Moves action { b with editing := none } (none != b.editing) := .edits
    rwa [hediting] at hmove

theorem moves_cancelRename (b : Browser) (action : Action) :
    b.Moves action b.cancelRename.1 b.cancelRename.2.changed := by
  have hmove : b.Moves action b.cancelRename.1 (none != b.editing) := .edits
  have hsome : (none != b.editing) = b.editing.isSome := by cases b.editing <;> rfl
  rwa [hsome] at hmove

theorem moves_createFolder (b : Browser) (action : Action) (name : String) :
    b.Moves action (b.createFolder name).1 (b.createFolder name).2.changed := by
  unfold createFolder
  dsimp only
  split <;> exact .stays

theorem moves_tick (b : Browser) (action : Action) :
    b.Moves action b.tick.1 b.tick.2.changed := by
  unfold tick
  split <;> exact .stays

theorem moves_dispatch (b : Browser) (action : Action) :
    b.Moves action (b.dispatch action).1 (b.dispatch action).2.changed := by
  cases action with
  | click id modifiers =>
    cases hlands : b.landing? (.click id modifiers) with
    | some landing => exact Moves.of_landing? hlands
    | none =>
      rw [dispatch_click_of_landing?_eq_none hlands]
      exact .stays
  | focusAdjacent delta modifiers =>
    cases hlands : b.landing? (.focusAdjacent delta modifiers) with
    | some landing => exact Moves.of_landing? hlands
    | none =>
      rw [dispatch_focusAdjacent_of_landing?_eq_none hlands]
      exact .stays
  | expand id => exact .opens Expansion.expands_iff
  | collapse id => exact .opens Expansion.collapses_iff
  | toggleExpanded id => exact b.moves_toggle _ id
  | activate id => exact b.moves_activate _ id
  | clearFocus => exact .letsGo (Or.inl rfl)
  | sortBy column => exact b.moves_sortBy _ column
  | drop dragged target => exact b.moves_drop _ dragged target
  | beginRename id => exact b.moves_beginRename _ id
  | finishRename name => exact b.moves_finishRename _ name
  | cancelRename => exact b.moves_cancelRename _
  | createFolder name => exact b.moves_createFolder _ name
  | remove id =>
    show b.Moves _ (b.remove id).1 (b.remove id).2.changed
    unfold remove
    split
    · rename_i heditable
      exact .letsGo (Or.inr ⟨id, rfl, heditable⟩)
    · exact .stays
  | replaceWorkspace workspace => exact .replaces rfl
  | tick => exact b.moves_tick _

/-! ## The workspace -/

theorem workspace_dispatch_replaceWorkspace (b : Browser) (w : Workspace) :
    (b.dispatch (.replaceWorkspace w)).1.workspace = w := by
  simp only [dispatch, replaceWorkspace]
  split <;> rfl

theorem Moves.workspace {b' : Browser} {changed : Bool} (h : b.Moves action b' changed)
    (haction : ∀ w, action ≠ .replaceWorkspace w) : b'.workspace = b.workspace := by
  cases h with
  | replaces hreplaces => exact absurd hreplaces (haction _)
  | lands | letsGo | opens | sorts | edits | stays => rfl

/-! ## The columns -/

theorem columns_replaceWorkspace (b : Browser) (w : Workspace) :
    (b.replaceWorkspace w).1.columns = b.columns := by
  unfold replaceWorkspace
  dsimp only
  split <;> rfl

theorem Moves.list_columns {b' : Browser} {changed : Bool} (h : b.Moves action b' changed) :
    b'.columns.list = b.columns.list := by
  cases h with
  | sorts => exact Columns.list_click _ _
  | replaces => rw [columns_replaceWorkspace]
  | lands | letsGo | opens | edits | stays => rfl

end Browser

end TreeBrowser
