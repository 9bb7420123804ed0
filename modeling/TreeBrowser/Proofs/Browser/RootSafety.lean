import Mathlib.Data.List.Induction
import TreeBrowser.Proofs.Browser.Editing
import TreeBrowser.Proofs.Browser.Step
import TreeBrowser.Proofs.Workspace.Samples

/-!
# The root folder

Removing and moving leave the root alone, and the editing of a name does not begin at the root. But
a workspace that is fetched again may have for its root the very entry whose name is being edited,
and then the new name of the root is asked for. There is no other way to ask for a change of the
root.
-/

namespace TreeBrowser

def Effect.changedIds : Effect → List EntryId
  | .renameEntry id _ => [id]
  | .removeEntry id => [id]
  | .moveEntries ids _ => ids
  | _ => []

namespace Browser

variable {b : Browser}

def EditsRoot (b : Browser) : Prop :=
  b.editing = some b.tree.root.id

/-! ## One step -/

theorem exists_root_effect_iff (b : Browser) (action : Action) :
    (∃ effect ∈ (b.dispatch action).2.effects, b.tree.root.id ∈ effect.changedIds) ↔
      b.EditsRoot ∧ ∃ name, action = .finishRename name ∧ Text.trim name ≠ "" ∧
        Text.trim name ≠ b.tree.root.name := by
  have hget : b.tree.get? b.tree.root.id = some b.tree.root := Tree.get?_of_mem Tree.root_mem
  constructor
  · rintro ⟨effect, heffect, hroot⟩
    cases asks_of_mem_effects heffect with
    | drop _ hcheck => exact absurd hroot (Tree.root_not_mem_of_checkMove hcheck)
    | @finishRename id e name hediting he hblank hname =>
      obtain rfl : b.tree.root.id = id := List.mem_singleton.1 hroot
      rw [hget] at he
      cases he
      exact ⟨hediting, name, rfl, hblank, hname.symm⟩
    | @remove id heditable =>
      obtain rfl : b.tree.root.id = id := List.mem_singleton.1 hroot
      exact absurd rfl (isEditable_iff.1 heditable).2
    | _ => cases hroot
  · rintro ⟨hediting, name, rfl, hblank, hname⟩
    exact ⟨_, mem_finishRename_effects_iff.2 ⟨_, _, hediting, hget, hblank, hname.symm, rfl⟩,
      List.mem_singleton.2 rfl⟩

/-- The root comes to be the entry whose name is edited only in a workspace that is fetched again
and has that entry for its root. -/
theorem EditsRoot.of_dispatch {action : Action} (h : (b.dispatch action).1.EditsRoot) :
    b.EditsRoot ∨ ∃ fetched, action = .replaceWorkspace fetched ∧
      fetched.id = b.workspace.id ∧ b.editing = some fetched.tree.root.id := by
  have hstep := (b.editing_dispatch_iff action).1 h
  by_cases hfetch : ∃ fetched, action = .replaceWorkspace fetched
  · obtain ⟨fetched, rfl⟩ := hfetch
    have hroot : (b.dispatch (.replaceWorkspace fetched)).1.tree.root = fetched.tree.root := by
      rw [tree, workspace_dispatch_replaceWorkspace]
    rw [hroot] at hstep
    obtain ⟨hbegins, -⟩ | ⟨hediting, hends⟩ := hstep
    · cases hbegins
    · rw [EndsEditing, not_or, not_not] at hends
      exact Or.inr ⟨fetched, rfl, hends.1, hediting⟩
  · have hroot : (b.dispatch action).1.tree.root = b.tree.root := by
      rw [tree, (b.moves_dispatch action).workspace (not_exists.1 hfetch)]
      rfl
    rw [hroot] at hstep
    obtain ⟨-, heditable⟩ | ⟨hediting, -⟩ := hstep
    · exact absurd rfl (isEditable_iff.1 heditable).2
    · exact Or.inl hediting

/-! ## Whole runs -/

/-- Since `fetched` came after the actions `before`, and through the actions `after`, the name of
the root has been edited; it was the name of another entry until then. -/
structure RootTakenOver (b : Browser) (before : List Action) (fetched : Workspace)
    (after : List Action) : Prop where
  same : fetched.id = (b.run before).workspace.id
  editing : (b.run before).editing = some fetched.tree.root.id
  moved : (b.run before).tree.root.id ≠ fetched.tree.root.id
  since : ∀ kept, kept <+: after → (b.run (before ++ .replaceWorkspace fetched :: kept)).EditsRoot

theorem editsRoot_run_iff (hb : ¬ b.EditsRoot) {actions : List Action} :
    (b.run actions).EditsRoot ↔ ∃ before fetched after,
      actions = before ++ .replaceWorkspace fetched :: after ∧
        b.RootTakenOver before fetched after := by
  constructor
  · intro h
    induction actions using List.reverseRecOn with
    | nil => exact absurd h hb
    | append_singleton actions action ih =>
      rw [run_append] at h
      by_cases hlast : (b.run actions).EditsRoot
      · -- The last action left the editing as it was: the same fetch accounts for it.
        obtain ⟨before, fetched, after, rfl, htaken⟩ := ih hlast
        refine ⟨before, fetched, after ++ [action], by simp, { htaken with since := ?_ }⟩
        intro kept hkept
        rcases List.prefix_concat_iff.1 hkept with rfl | hkept
        · rw [← run_append] at h
          simpa using h
        · exact htaken.since kept hkept
      · -- The last action began it, so it is a fetch.
        obtain hbefore | ⟨fetched, rfl, hid, hediting⟩ := EditsRoot.of_dispatch h
        · exact absurd hbefore hlast
        · refine ⟨actions, fetched, [], rfl, hid, hediting, ?_, ?_⟩
          · intro hroot
            rw [← hroot] at hediting
            exact hlast hediting
          · intro kept hkept
            rw [List.prefix_nil.1 hkept, run_append]
            exact h
  · rintro ⟨before, fetched, after, rfl, htaken⟩
    exact htaken.since after (List.prefix_refl _)

/-- Whatever is done to a browser, the next action asks for the root to be renamed, removed or moved
exactly when the workspace was fetched again with the entry whose name was being edited for its new
root, that has gone on ever since, and the action ends it with another name. -/
theorem run_changes_root_iff (workspace : Workspace) (settings : Settings) (actions : List Action)
    (action : Action) :
    let b := start workspace settings
    let root := (b.run actions).tree.root
    (∃ effect ∈ ((b.run actions).dispatch action).2.effects, root.id ∈ effect.changedIds) ↔
      ∃ before fetched after name,
        actions = before ++ .replaceWorkspace fetched :: after ∧ action = .finishRename name ∧
          b.RootTakenOver before fetched after ∧ Text.trim name ≠ "" ∧
          Text.trim name ≠ root.name := by
  intro b root
  have hb : ¬ b.EditsRoot := nofun
  rw [exists_root_effect_iff, editsRoot_run_iff hb]
  constructor
  · rintro ⟨⟨before, fetched, after, hactions, htaken⟩, name, rfl, hname⟩
    exact ⟨before, fetched, after, name, hactions, rfl, htaken, hname⟩
  · rintro ⟨before, fetched, after, name, hactions, rfl, htaken, hname⟩
    exact ⟨⟨before, fetched, after, hactions, htaken⟩, name, rfl, hname⟩

def innerTree : Tree WorkspaceEntry where
  root := (folderOf "a" []).entry none
  others := []
  nested := ⟨folderOf "a" [], rfl, rfl⟩
  nodup := by decide

/-- The editing of a name that began at a folder renames the root that the folder has become. -/
theorem root_renamed_after_refetch :
    let b := (start (workspaceOf outerTree) {}).run
      [.beginRename "a", .replaceWorkspace (workspaceOf innerTree)]
    b.tree.root.id = "a" ∧
      (b.dispatch (.finishRename "B")).2.effects = [.renameEntry "a" "B"] := by
  decide +kernel

end Browser

end TreeBrowser
