import TreeBrowser.Proofs.Browser.Step
import TreeBrowser.Proofs.Text.Blank
import TreeBrowser.Proofs.Workspace.Samples

/-!
# Warranted effects

A browser asks for at most one thing at a time, and only for what its surroundings can do: the
entries that an effect names are there, the folders among them are folders, and new names are
neither blank nor padded with blanks.
-/

namespace TreeBrowser.Browser

variable {b : Browser} {action : Action}

/-- Where a new folder belongs: in the focused folder, in the folder of the focused file, or in the
root when nothing has the focus. -/
inductive NewFolderBelongs (b : Browser) : EntryId → Prop
  | inFocused {e : Entry WorkspaceEntry} :
      e ∈ b.tree.entries → b.selection.focused = some e.id → e.isNode = true →
      b.NewFolderBelongs e.id
  | besideFocused {e : Entry WorkspaceEntry} {parent : EntryId} :
      e ∈ b.tree.entries → b.selection.focused = some e.id → e.isNode = false →
      e.parent = some parent → b.NewFolderBelongs parent
  | inRoot : b.selection.focused = none → b.NewFolderBelongs b.tree.root.id

/-- A name that says something and has no blanks around it. -/
def ProperName (name : String) : Prop :=
  name ≠ "" ∧ Text.trim name = name

/-- What the state and the action that is dispatched must be like for an effect to be in order. -/
def Warrants (b : Browser) (action : Action) : Effect → Prop
  | .focusChanged id =>
    b.tree.contains id = true ∧
      (b.dispatch action).1.selection.selected = [id] ∧
      (b.dispatch action).1.selection.focused = some id
  | .openViewer uri =>
    b.editing = none ∧ ∃ id e data, action = .activate id ∧ b.tree.get? id = some e ∧
      e.isNode = false ∧ e.data.fileData? = some data ∧ data.uri = uri
  | .renameEntry id name =>
    (∃ typed, action = .finishRename typed ∧ Text.trim typed = name) ∧ b.editing = some id ∧
      ProperName name ∧ ∃ e, b.tree.get? id = some e ∧ e.name ≠ name
  | .removeEntry id =>
    action = .remove id ∧ b.tree.contains id = true ∧ id ≠ b.tree.root.id
  | .createFolder parent name =>
    (∃ typed, action = .createFolder typed ∧ Text.trim typed = name) ∧
      b.selection.selected.length ≤ 1 ∧ ProperName name ∧ b.tree.isNode parent = true ∧
      b.NewFolderBelongs parent
  | .refreshWorkspace workspaceId => action = .tick ∧ workspaceId = b.workspace.id
  | .moveEntries ids newParent =>
    (∃ dragged, action = .drop dragged newParent) ∧ ids.Nodup ∧
      (∀ id ∈ ids, b.tree.contains id = true) ∧ b.tree.isNode newParent = true

/-! ## At most one effect -/

theorem length_clickEffects_le (id : EntryId) (modifiers : Modifiers) :
    (clickEffects id modifiers).length ≤ 1 := by
  unfold clickEffects
  split <;> simp

theorem length_click_effects_le (b : Browser) (id : EntryId) (modifiers : Modifiers) :
    (b.click id modifiers).2.effects.length ≤ 1 := by
  unfold click
  split
  · exact length_clickEffects_le id modifiers
  · exact Nat.zero_le 1

theorem length_activate_effects_le (b : Browser) (id : EntryId) :
    (b.activate id).2.effects.length ≤ 1 := by
  unfold activate
  split
  · exact Nat.zero_le 1
  · split
    · exact Nat.zero_le 1
    · split
      · exact Nat.zero_le 1
      · split
        · exact Nat.le_refl 1
        · exact Nat.zero_le 1

theorem length_drop_effects_le (b : Browser) (dragged target : EntryId) :
    (b.drop dragged target).2.effects.length ≤ 1 := by
  unfold drop
  cases heffects : b.dropEffects dragged target with
  | error => exact Nat.zero_le 1
  | ok effects =>
    obtain ⟨ids, -, -, rfl⟩ := dropEffects_eq_ok_iff.1 heffects
    exact Nat.le_refl 1

theorem length_finishRename_effects_le (b : Browser) (name : String) :
    (b.finishRename name).2.effects.length ≤ 1 := by
  unfold finishRename
  split
  · exact Nat.zero_le 1
  · dsimp only
    split
    · split <;> simp
    · exact Nat.zero_le 1

theorem length_effects_le (b : Browser) (action : Action) :
    (b.dispatch action).2.effects.length ≤ 1 := by
  cases action with
  | click id modifiers => exact b.length_click_effects_le id modifiers
  | focusAdjacent delta modifiers =>
    show (b.focusAdjacent delta modifiers).2.effects.length ≤ 1
    unfold focusAdjacent
    split
    · exact b.length_click_effects_le _ modifiers
    · exact Nat.zero_le 1
  | activate id => exact b.length_activate_effects_le id
  | drop dragged target => exact b.length_drop_effects_le dragged target
  | finishRename name => exact b.length_finishRename_effects_le name
  | beginRename id =>
    show (b.beginRename id).2.effects.length ≤ 1
    rw [beginRename_effects]
    exact Nat.zero_le 1
  | createFolder name =>
    show (b.createFolder name).2.effects.length ≤ 1
    unfold createFolder
    dsimp only
    split <;> simp [Outcome.unchanged]
  | remove id =>
    show (b.remove id).2.effects.length ≤ 1
    unfold remove
    split <;> simp [setSelection, Outcome.unchanged]
  | tick =>
    show b.tick.2.effects.length ≤ 1
    unfold tick
    split <;> simp [Outcome.unchanged]
  | _ => exact Nat.zero_le 1

/-! ## New folders -/

theorem properName_trim {typed : String} (h : Text.trim typed ≠ "") :
    ProperName (Text.trim typed) :=
  ⟨h, Text.trim_trim typed⟩

theorem exists_folder_of_isNode_eq_false {t : Tree WorkspaceEntry} {e : Entry WorkspaceEntry}
    (he : e ∈ t.entries) (hfile : e.isNode = false) :
    ∃ folder ∈ t.entries, e.parent = some folder.id ∧ folder.isNode = true ∧
      t.parent? e.id = some folder := by
  have hne : e ≠ t.root := by
    rintro rfl
    rw [Tree.root_isNode] at hfile
    cases hfile
  cases hparent : e.parent with
  | none => exact absurd ((Tree.eq_root_iff he).2 hparent) hne
  | some p =>
    obtain ⟨folder, hfolder, rfl, hchild⟩ := Tree.exists_parent he hparent
    refine ⟨folder, hfolder, rfl, Tree.isNode_of_mem_childrenOf hchild, ?_⟩
    rw [Tree.parent?, Tree.get?_of_mem he, Option.bind_some, hparent, Option.bind_some,
      Tree.get?_of_mem hfolder]

theorem newFolderParent_belongs (h : b.Sound) :
    b.tree.isNode b.newFolderParent.id = true ∧ b.NewFolderBelongs b.newFolderParent.id := by
  unfold newFolderParent
  cases hfocused : b.selection.focused with
  | none => exact ⟨Tree.isNode_iff.2 ⟨_, Tree.root_mem, rfl, Tree.root_isNode⟩, .inRoot hfocused⟩
  | some id =>
    -- The root stands in for nothing here: the entry exists, and a file has a folder.
    obtain ⟨e, he, rfl⟩ := Tree.contains_iff.1 (h.selection.focused id hfocused)
    simp only [Option.bind_some, Tree.get?_of_mem he]
    cases hnode : e.isNode with
    | true => exact ⟨Tree.isNode_iff.2 ⟨e, he, rfl, hnode⟩, .inFocused he hfocused hnode⟩
    | false =>
      obtain ⟨folder, hfolder, hparent, hfolderNode, hlookup⟩ :=
        exists_folder_of_isNode_eq_false he hnode
      rw [if_neg Bool.false_ne_true, hlookup]
      exact ⟨Tree.isNode_iff.2 ⟨folder, hfolder, rfl, hfolderNode⟩,
        .besideFocused he hfocused hnode hparent⟩

/-! ## Every effect -/

theorem warrants_moveEntries (h : b.Sound) {dragged target : EntryId} {ids : List EntryId}
    (hids : b.tree.idsToMove b.selection.selected dragged = .ok ids)
    (hcheck : b.tree.checkMove ids target = .ok ()) :
    b.Warrants (.drop dragged target) (.moveEntries ids target) := by
  obtain ⟨-, rfl⟩ := Tree.idsToMove_eq_ok_iff.1 hids
  obtain ⟨hnode, hsafe⟩ := Tree.checkMove_eq_ok_iff.1 hcheck
  exact ⟨⟨dragged, rfl⟩, (Tree.topmost_sublist _).nodup h.selection.nodup,
    fun id hid => (hsafe id hid).1, hnode⟩

theorem warrants_focusChanged {id : EntryId} {modifiers : Modifiers}
    (hlands : b.landing? action = some (id, modifiers)) (hmeta : modifiers.metaKey = false)
    (hshift : modifiers.shiftKey = false) : b.Warrants action (.focusChanged id) := by
  have hselection : (b.dispatch action).1.selection = b.selection.click id := by
    rw [dispatch_of_landing? hlands]
    show b.clicked id modifiers = b.selection.click id
    rw [clicked, hmeta, hshift]
    rfl
  rw [Warrants, hselection]
  exact ⟨contains_of_landing? hlands, rfl, rfl⟩

/-- In every reachable state, every action asks for at most one thing, which it has a warrant for. -/
theorem effects_are_warranted (hb : b.Reachable) (action : Action) :
    (b.dispatch action).2.effects.length ≤ 1 ∧
      ∀ effect ∈ (b.dispatch action).2.effects, b.Warrants action effect := by
  refine ⟨b.length_effects_le action, fun effect heffect => ?_⟩
  cases action with
  | click id modifiers =>
    obtain ⟨hid, hmeta, hshift, rfl⟩ := mem_click_effects_iff.1 heffect
    exact warrants_focusChanged (landing?_click_eq_some_iff.2 ⟨hid, rfl, rfl⟩) hmeta hshift
  | focusAdjacent delta modifiers =>
    obtain ⟨id, hrow, hclick⟩ := mem_focusAdjacent_effects_iff.1 heffect
    obtain ⟨-, hmeta, hshift, rfl⟩ := mem_click_effects_iff.1 hclick
    exact warrants_focusChanged (landing?_focusAdjacent_eq_some_iff.2 ⟨hrow, rfl⟩) hmeta hshift
  | activate id =>
    obtain ⟨e, data, hget, hfile, hediting, hdata, rfl⟩ := mem_activate_effects_iff.1 heffect
    exact ⟨hediting, id, e, data, rfl, hget, hfile, hdata, rfl⟩
  | drop dragged target =>
    obtain ⟨ids, hids, hcheck, rfl⟩ := mem_drop_effects_iff.1 heffect
    exact warrants_moveEntries hb.sound hids hcheck
  | finishRename name =>
    obtain ⟨id, e, hediting, hget, hblank, hname, rfl⟩ := mem_finishRename_effects_iff.1 heffect
    exact ⟨⟨name, rfl, rfl⟩, hediting, properName_trim hblank, e, hget, hname⟩
  | remove id =>
    obtain ⟨heditable, rfl⟩ := mem_remove_effects_iff.1 heffect
    exact ⟨rfl, isEditable_iff.1 heditable⟩
  | createFolder name =>
    obtain ⟨hblank, hfew, rfl⟩ := mem_createFolder_effects_iff.1 heffect
    exact ⟨⟨name, rfl, rfl⟩, hfew, properName_trim hblank, newFolderParent_belongs hb.sound⟩
  | tick =>
    obtain ⟨-, rfl⟩ := mem_tick_effects_iff.1 heffect
    exact ⟨rfl, rfl⟩
  | beginRename id =>
    change effect ∈ (b.beginRename id).2.effects at heffect
    rw [beginRename_effects] at heffect
    cases heffect
  | _ => exact absurd heffect List.not_mem_nil

theorem newFolder_beside_file :
    let b := (start (workspaceOf twoFoldersTree) {}).run [.click "x" .none]
    let action := Action.createFolder " New\tfolder  "
    b.Reachable ∧ (b.dispatch action).2.effects = [.createFolder "a" "New\tfolder"] ∧
      b.Warrants action (.createFolder "a" "New\tfolder") := by
  intro b action
  have hreachable : b.Reachable := (Reachable.start _ _).run _
  have heffects : (b.dispatch action).2.effects = [.createFolder "a" "New\tfolder"] := by
    decide +kernel
  refine ⟨hreachable, heffects, (effects_are_warranted hreachable action).2 _ ?_⟩
  rw [heffects]
  exact List.mem_singleton.2 rfl

end TreeBrowser.Browser
