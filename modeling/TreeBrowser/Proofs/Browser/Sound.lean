import TreeBrowser.Proofs.Browser.Run
import TreeBrowser.Proofs.Expansion
import TreeBrowser.Proofs.Selection
import TreeBrowser.Proofs.VisualOrder

/-!
# Sound browsers

The ids that a browser holds beside its tree are ids of the tree, those of open folders are ids of
folders, and the sort column is one of the columns. A browser starts so, every step keeps it so, and
hence it is so in every reachable state.
-/

namespace TreeBrowser.Browser

variable {b : Browser}

theorem has_columnsOf (settings : Settings) :
    (columnsOf settings).has (columnsOf settings).sortColumn = true := by
  show Workspace.defaultColumns.has
    (if Workspace.defaultColumns.has settings.sortColumn then settings.sortColumn
      else Workspace.nameColumn) = true
  split
  · assumption
  · rfl

/-! ## The invariant -/

structure Sound (b : Browser) : Prop where
  selection : b.selection.Sound b.tree
  expanded : b.expanded.Sound b.tree
  cursor : ∀ id ∈ b.cursor, b.tree.contains id = true
  editing : ∀ id ∈ b.editing, b.tree.contains id = true
  columns : b.columns.has b.columns.sortColumn = true

theorem contains_of_mem_rowIds {id : EntryId} (hid : id ∈ b.rowIds) :
    b.tree.contains id = true := by
  obtain ⟨e, he, rfl⟩ := List.mem_map.1 hid
  exact Tree.contains_of_mem (Listing.mem_entries_of_mem_rows he)

namespace Sound

/-! ## One step -/

theorem setSelection (h : b.Sound) {next : Selection} (hnext : next.Sound b.tree)
    {cursor : Option EntryId} (hcursor : ∀ id ∈ cursor, b.tree.contains id = true)
    (effects : List Effect) : (b.setSelection next cursor effects).1.Sound :=
  ⟨hnext, h.expanded, hcursor, h.editing, h.columns⟩

theorem deselect (h : b.Sound) (effects : List Effect) :
    (b.setSelection .empty none effects).1.Sound :=
  ⟨Selection.Sound.empty, h.expanded, nofun, h.editing, h.columns⟩

theorem setExpanded (h : b.Sound) {next : Expansion} (hnext : next.Sound b.tree)
    (changed : Bool) : (b.setExpanded next changed).1.Sound :=
  ⟨h.selection, hnext, h.cursor, h.editing, h.columns⟩

theorem setEditing (h : b.Sound) {editing : Option EntryId}
    (hediting : ∀ id ∈ editing, b.tree.contains id = true) :
    Browser.Sound { b with editing } :=
  ⟨h.selection, h.expanded, h.cursor, hediting, h.columns⟩

theorem clicked (h : b.Sound) {id : EntryId} (hid : b.tree.contains id = true)
    (modifiers : Modifiers) : (b.clicked id modifiers).Sound b.tree := by
  unfold Browser.clicked
  split
  · exact h.selection.metaClick hid
  · split
    · exact h.selection.shiftClick b.listing.nodup_ids (fun _ => contains_of_mem_rowIds) id _
    · exact Selection.Sound.click hid

theorem click (h : b.Sound) (id : EntryId) (modifiers : Modifiers) :
    (b.click id modifiers).1.Sound := by
  unfold Browser.click
  split
  · rename_i hid
    apply h.setSelection (h.clicked hid modifiers)
    intro other hother
    cases hother
    exact hid
  · exact h

theorem focusAdjacent (h : b.Sound) (delta : Int) (modifiers : Modifiers) :
    (b.focusAdjacent delta modifiers).1.Sound := by
  unfold Browser.focusAdjacent
  split
  · exact h.click _ modifiers
  · exact h

theorem activate (h : b.Sound) (id : EntryId) : (b.activate id).1.Sound := by
  unfold Browser.activate
  split
  · exact h
  · split
    · exact h.setExpanded (h.expanded.toggle id) _
    · split
      · exact h
      · split <;> exact h

theorem clearFocus (h : b.Sound) : b.clearFocus.1.Sound :=
  h.deselect []

theorem sortBy (h : b.Sound) (column : String) : (b.sortBy column).1.Sound :=
  ⟨h.selection, h.expanded, h.cursor, h.editing, Columns.has_click h.columns column⟩

theorem drop (h : b.Sound) (dragged target : EntryId) : (b.drop dragged target).1.Sound := by
  unfold Browser.drop
  split <;> exact h

theorem beginRename (h : b.Sound) (id : EntryId) : (b.beginRename id).1.Sound := by
  unfold Browser.beginRename
  split
  · rename_i heditable
    rw [isEditable, Bool.and_eq_true] at heditable
    apply h.setEditing
    intro other hother
    cases hother
    exact heditable.1
  · exact h

theorem finishRename (h : b.Sound) (name : String) : (b.finishRename name).1.Sound := by
  unfold Browser.finishRename
  split
  · exact h
  · exact h.setEditing nofun

theorem cancelRename (h : b.Sound) : b.cancelRename.1.Sound :=
  h.setEditing nofun

theorem createFolder (h : b.Sound) (name : String) : (b.createFolder name).1.Sound := by
  unfold Browser.createFolder
  dsimp only
  split <;> exact h

theorem remove (h : b.Sound) (id : EntryId) : (b.remove id).1.Sound := by
  unfold Browser.remove
  split
  · exact h.deselect [.removeEntry id]
  · exact h

theorem switchTo (h : b.Sound) (workspace : Workspace) : (b.switchTo workspace).Sound :=
  ⟨Selection.Sound.empty, Expansion.Sound.empty, nofun, nofun, h.columns⟩

theorem refetched (h : b.Sound) (workspace : Workspace) : (b.refetched workspace).Sound where
  selection := h.selection.retainExisting workspace.tree
  expanded := Expansion.sound_retainExisting b.expanded workspace.tree
  cursor _ hid := (Option.mem_filter_iff.1 hid).2
  editing _ hid := (Option.mem_filter_iff.1 hid).2
  columns := h.columns

theorem replaceWorkspace (h : b.Sound) (workspace : Workspace) :
    (b.replaceWorkspace workspace).1.Sound := by
  unfold Browser.replaceWorkspace
  dsimp only
  split
  · exact h.refetched workspace
  · exact h.switchTo workspace

theorem replaceWorkspace_eq (h : b.Sound) {workspace : Workspace}
    (hid : workspace.id = b.workspace.id)
    (hcontains : ∀ id, b.tree.contains id = true → workspace.tree.contains id = true)
    (hnode : ∀ id, b.tree.isNode id = true → workspace.tree.isNode id = true) :
    (b.replaceWorkspace workspace).1 = { b with workspace } := by
  have hcursor : b.cursor.filter workspace.tree.contains = b.cursor :=
    filter_eq_self_of_mem fun id hid => hcontains id (h.cursor id hid)
  have hediting : b.editing.filter workspace.tree.contains = b.editing :=
    filter_eq_self_of_mem fun id hid => hcontains id (h.editing id hid)
  rw [Browser.replaceWorkspace, if_pos hid, Browser.refetched,
    h.selection.retainExisting_eq hcontains, h.expanded.retainExisting_eq hnode, hcursor, hediting]

theorem tick (h : b.Sound) : b.tick.1.Sound := by
  unfold Browser.tick
  split <;> exact h

theorem dispatch (h : b.Sound) (action : Action) : (b.dispatch action).1.Sound := by
  cases action with
  | click id modifiers => exact h.click id modifiers
  | focusAdjacent delta modifiers => exact h.focusAdjacent delta modifiers
  | expand id => exact h.setExpanded (h.expanded.expand id) _
  | collapse id => exact h.setExpanded (h.expanded.filter _) _
  | toggleExpanded id => exact h.setExpanded (h.expanded.toggle id) _
  | activate id => exact h.activate id
  | clearFocus => exact h.clearFocus
  | sortBy column => exact h.sortBy column
  | drop dragged target => exact h.drop dragged target
  | beginRename id => exact h.beginRename id
  | finishRename name => exact h.finishRename name
  | cancelRename => exact h.cancelRename
  | createFolder name => exact h.createFolder name
  | remove id => exact h.remove id
  | replaceWorkspace workspace => exact h.replaceWorkspace workspace
  | tick => exact h.tick

/-! ## Whole runs -/

theorem start (workspace : Workspace) (settings : Settings) :
    (Browser.start workspace settings).Sound :=
  ⟨Selection.Sound.empty, Expansion.Sound.empty, nofun, nofun, has_columnsOf settings⟩

end Sound

theorem Reachable.sound (h : b.Reachable) : b.Sound := by
  induction h with
  | start workspace settings => exact Sound.start workspace settings
  | step action _ ih => exact ih.dispatch action

/-- Whatever is done to a browser, and whatever workspaces it is given, all that it refers to is
there: the ids of its selection, its cursor and the name that is edited are ids of entries, the open
ids are ids of folders, and the sort column is a column. No id is selected twice, and the last range
stands at the end of the selection. -/
theorem run_refers_to_tree (workspace : Workspace) (settings : Settings) (actions : List Action) :
    let b := (Browser.start workspace settings).run actions
    (∀ id ∈ b.selection.selected, b.tree.contains id = true) ∧
    (∀ id ∈ b.selection.lastRange, b.tree.contains id = true) ∧
    (∀ id, b.selection.focused = some id → b.tree.contains id = true) ∧
    (∀ id, b.cursor = some id → b.tree.contains id = true) ∧
    (∀ id, b.editing = some id → b.tree.contains id = true) ∧
    (∀ id, b.expanded.contains id = true → b.tree.isNode id = true) ∧
    b.selection.selected.Nodup ∧
    b.selection.lastRange.Nodup ∧
    b.selection.lastRange <:+ b.selection.selected ∧
    ∃ column ∈ b.columns.list, column.name = b.columns.sortColumn := by
  intro b
  have h : b.Sound := ((Reachable.start workspace settings).run actions).sound
  refine ⟨h.selection.selected, fun _ => h.selection.of_lastRange, h.selection.focused, h.cursor,
    h.editing, h.expanded, h.selection.nodup, h.selection.nodup_lastRange, h.selection.lastRange,
    ?_⟩
  have hcolumn := h.columns
  rw [Columns.has, List.any_eq_true] at hcolumn
  obtain ⟨column, hmem, hname⟩ := hcolumn
  exact ⟨column, hmem, beq_iff_eq.1 hname⟩

end TreeBrowser.Browser
