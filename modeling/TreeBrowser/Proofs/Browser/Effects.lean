import TreeBrowser.Proofs.Browser.Run
import TreeBrowser.Proofs.Move

/-!
# What actions ask for

For each action that asks for anything, what it asks for and when. Opening, closing and sorting ask
for nothing, nor does another workspace. `Asks` puts this together for all actions.
-/

namespace TreeBrowser.Browser

variable {b : Browser} {effect : Effect}

theorem mem_click_effects_iff {id : EntryId} {modifiers : Modifiers} :
    effect ∈ (b.click id modifiers).2.effects ↔
      b.tree.contains id = true ∧ modifiers.metaKey = false ∧ modifiers.shiftKey = false ∧
        effect = .focusChanged id := by
  unfold click
  cases hcontains : b.tree.contains id with
  | false => simp [Outcome.unchanged]
  | true =>
    rw [if_pos rfl]
    show effect ∈ clickEffects id modifiers ↔ _
    unfold clickEffects
    cases modifiers.metaKey <;> cases modifiers.shiftKey <;> simp

theorem mem_focusAdjacent_effects_iff {delta : Int} {modifiers : Modifiers} :
    effect ∈ (b.focusAdjacent delta modifiers).2.effects ↔
      ∃ id, b.steppedRow? delta = some id ∧ effect ∈ (b.click id modifiers).2.effects := by
  unfold focusAdjacent
  cases b.steppedRow? delta with
  | none => simp [Outcome.unchanged]
  | some id => simp

theorem mem_activate_effects_iff {id : EntryId} :
    effect ∈ (b.activate id).2.effects ↔
      ∃ e data, b.tree.get? id = some e ∧ e.isNode = false ∧ b.editing = none ∧
        e.data.fileData? = some data ∧ effect = .openViewer data.uri := by
  unfold activate
  cases hget : b.tree.get? id with
  | none => simp [Outcome.unchanged]
  | some e =>
    cases hnode : e.isNode with
    | true => simp [hnode, toggle, setExpanded, Outcome.ofChange]
    | false =>
      cases hediting : b.editing with
      | some other => simp [hnode, Outcome.unchanged]
      | none =>
        cases hdata : e.data.fileData? with
        | none => simp [hnode, hdata, Outcome.unchanged]
        | some data => simp [hnode, hdata]

theorem dropEffects_eq_ok_iff {dragged target : EntryId} {effects : List Effect} :
    b.dropEffects dragged target = .ok effects ↔
      ∃ ids, b.tree.idsToMove b.selection.selected dragged = .ok ids ∧
        b.tree.checkMove ids target = .ok () ∧ effects = [.moveEntries ids target] := by
  unfold dropEffects
  cases hids : b.tree.idsToMove b.selection.selected dragged with
  | error fault => simp [bind, Except.bind]
  | ok ids =>
    cases hcheck : b.tree.checkMove ids target with
    | error fault => simp [bind, Except.bind, hcheck]
    | ok done => simp [bind, Except.bind, pure, Except.pure, hcheck, eq_comm]

theorem mem_drop_effects_iff {dragged target : EntryId} :
    effect ∈ (b.drop dragged target).2.effects ↔
      ∃ ids, b.tree.idsToMove b.selection.selected dragged = .ok ids ∧
        b.tree.checkMove ids target = .ok () ∧ effect = .moveEntries ids target := by
  unfold drop
  cases heffects : b.dropEffects dragged target with
  | error fault =>
    refine ⟨fun h => absurd h List.not_mem_nil, ?_⟩
    rintro ⟨ids, hids, hcheck, -⟩
    rw [dropEffects_eq_ok_iff.2 ⟨ids, hids, hcheck, rfl⟩] at heffects
    cases heffects
  | ok effects =>
    obtain ⟨ids, hids, hcheck, rfl⟩ := dropEffects_eq_ok_iff.1 heffects
    simp [hids, hcheck]

theorem isEditable_iff {id : EntryId} :
    b.isEditable id = true ↔ b.tree.contains id = true ∧ id ≠ b.tree.root.id := by
  simp [isEditable]

theorem mem_remove_effects_iff {id : EntryId} :
    effect ∈ (b.remove id).2.effects ↔ b.isEditable id = true ∧ effect = .removeEntry id := by
  unfold remove
  cases heditable : b.isEditable id with
  | false => simp [Outcome.unchanged]
  | true => simp [setSelection]

theorem beginRename_effects (b : Browser) (id : EntryId) : (b.beginRename id).2.effects = [] := by
  unfold beginRename
  split <;> rfl

theorem mem_finishRename_effects_iff {name : String} :
    effect ∈ (b.finishRename name).2.effects ↔
      ∃ id e, b.editing = some id ∧ b.tree.get? id = some e ∧ Text.trim name ≠ "" ∧
        e.name ≠ Text.trim name ∧ effect = .renameEntry id (Text.trim name) := by
  unfold finishRename
  generalize Text.trim name = trimmed
  cases b.editing with
  | none => simp [Outcome.unchanged]
  | some id =>
    cases hget : b.tree.get? id with
    | none => simp [hget]
    | some e =>
      by_cases hblank : trimmed = ""
      · simp [hget, hblank]
      · by_cases hsame : e.name = trimmed
        · simp [hget, hsame]
        · simp [hget, hblank, hsame]

theorem mem_createFolder_effects_iff {name : String} :
    effect ∈ (b.createFolder name).2.effects ↔
      Text.trim name ≠ "" ∧ b.selection.selected.length ≤ 1 ∧
        effect = .createFolder b.newFolderParent.id (Text.trim name) := by
  unfold createFolder
  generalize Text.trim name = trimmed
  by_cases hblank : trimmed = ""
  · simp [hblank, Outcome.unchanged]
  · by_cases hmany : 1 < b.selection.selected.length
    · have hmore : ¬ b.selection.selected.length ≤ 1 := by omega
      simp [hmany, hmore, Outcome.unchanged]
    · have hfew : b.selection.selected.length ≤ 1 := by omega
      simp [hblank, hmany, hfew]

theorem mem_tick_effects_iff :
    effect ∈ b.tick.2.effects ↔
      b.workspace.hasProcessingFiles = true ∧ effect = .refreshWorkspace b.workspace.id := by
  unfold tick
  cases b.workspace.hasProcessingFiles with
  | false => simp [Outcome.unchanged]
  | true => simp

inductive Asks (b : Browser) : Action → Effect → Prop
  | click {id : EntryId} {modifiers : Modifiers} :
      b.tree.contains id = true → modifiers.metaKey = false → modifiers.shiftKey = false →
      b.Asks (.click id modifiers) (.focusChanged id)
  | focusAdjacent {delta : Int} {id : EntryId} {modifiers : Modifiers} :
      b.steppedRow? delta = some id → modifiers.metaKey = false → modifiers.shiftKey = false →
      b.Asks (.focusAdjacent delta modifiers) (.focusChanged id)
  | activate {id : EntryId} {e : Entry WorkspaceEntry} {data : FileData} :
      b.tree.get? id = some e → e.isNode = false → b.editing = none →
      e.data.fileData? = some data → b.Asks (.activate id) (.openViewer data.uri)
  | drop {dragged target : EntryId} {ids : List EntryId} :
      b.tree.idsToMove b.selection.selected dragged = .ok ids →
      b.tree.checkMove ids target = .ok () → b.Asks (.drop dragged target) (.moveEntries ids target)
  | finishRename {id : EntryId} {e : Entry WorkspaceEntry} {name : String} :
      b.editing = some id → b.tree.get? id = some e → Text.trim name ≠ "" →
      e.name ≠ Text.trim name → b.Asks (.finishRename name) (.renameEntry id (Text.trim name))
  | createFolder {name : String} :
      Text.trim name ≠ "" → b.selection.selected.length ≤ 1 →
      b.Asks (.createFolder name) (.createFolder b.newFolderParent.id (Text.trim name))
  | remove {id : EntryId} : b.isEditable id = true → b.Asks (.remove id) (.removeEntry id)
  | tick : b.workspace.hasProcessingFiles = true → b.Asks .tick (.refreshWorkspace b.workspace.id)

theorem asks_of_mem_effects {action : Action} (h : effect ∈ (b.dispatch action).2.effects) :
    b.Asks action effect := by
  cases action with
  | click =>
    obtain ⟨hid, hmeta, hshift, rfl⟩ := mem_click_effects_iff.1 h
    exact .click hid hmeta hshift
  | focusAdjacent =>
    obtain ⟨id, hrow, hclick⟩ := mem_focusAdjacent_effects_iff.1 h
    obtain ⟨-, hmeta, hshift, rfl⟩ := mem_click_effects_iff.1 hclick
    exact .focusAdjacent hrow hmeta hshift
  | activate =>
    obtain ⟨e, data, hget, hfile, hediting, hdata, rfl⟩ := mem_activate_effects_iff.1 h
    exact .activate hget hfile hediting hdata
  | drop =>
    obtain ⟨ids, hids, hcheck, rfl⟩ := mem_drop_effects_iff.1 h
    exact .drop hids hcheck
  | beginRename id =>
    change effect ∈ (b.beginRename id).2.effects at h
    rw [beginRename_effects] at h
    cases h
  | finishRename =>
    obtain ⟨id, e, hediting, hget, hblank, hname, rfl⟩ := mem_finishRename_effects_iff.1 h
    exact .finishRename hediting hget hblank hname
  | createFolder =>
    obtain ⟨hblank, hfew, rfl⟩ := mem_createFolder_effects_iff.1 h
    exact .createFolder hblank hfew
  | remove =>
    obtain ⟨heditable, rfl⟩ := mem_remove_effects_iff.1 h
    exact .remove heditable
  | tick =>
    obtain ⟨hprocessing, rfl⟩ := mem_tick_effects_iff.1 h
    exact .tick hprocessing
  | _ => exact absurd h List.not_mem_nil

end TreeBrowser.Browser
