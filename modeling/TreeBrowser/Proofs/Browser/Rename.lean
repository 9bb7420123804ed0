import TreeBrowser.Proofs.Browser.Editing
import TreeBrowser.Proofs.Browser.Effects
import TreeBrowser.Proofs.Workspace.Samples

/-!
# New names

The editing of a name is a session. A new name is asked for only by the action that finishes a
session, so once for each, and as long as a session goes on no file is shown.
-/

namespace TreeBrowser.Browser

variable {b : Browser} {action : Action} {id : EntryId}

theorem renameEntry_mem_effects_iff {name : String} :
    .renameEntry id name ∈ (b.dispatch action).2.effects ↔
      b.editing = some id ∧ ∃ typed e, action = .finishRename typed ∧ Text.trim typed = name ∧
        name ≠ "" ∧ b.tree.get? id = some e ∧ e.name ≠ name := by
  constructor
  · intro h
    cases asks_of_mem_effects h with
    | finishRename hediting hget hblank hname =>
      exact ⟨hediting, _, _, rfl, rfl, hblank, hget, hname⟩
  · rintro ⟨hediting, typed, e, rfl, rfl, hblank, hget, hname⟩
    exact mem_finishRename_effects_iff.2 ⟨id, e, hediting, hget, hblank, hname, rfl⟩

/-- After the actions of a run, another action asks for a new name. -/
def AsksForName (b : Browser) (actions : List Action) (action : Action) : Prop :=
  ∃ id name, .renameEntry id name ∈ ((b.run actions).dispatch action).2.effects

theorem EditingOpen.length_le {before actions after later rest : List Action}
    (hlater : b.EditingOpen before id later) (hasks : b.AsksForName actions action)
    (hinRest : after ++ [action] <+: rest) (hlaterInRest : later <+: rest) :
    later.length ≤ after.length := by
  obtain ⟨other, name, heffect⟩ := hasks
  obtain ⟨-, typed, e, rfl, -⟩ := renameEntry_mem_effects_iff.1 heffect
  by_contra hlonger
  have hpassed : after ++ [.finishRename typed] <+: later := by
    apply List.prefix_of_prefix_length_le hinRest hlaterInRest
    rw [List.length_append, List.length_singleton]
    omega
  exact hlater.since after _ hpassed trivial

/-- In every run, a new name is asked for by an action that finishes the editing of a name, and only
while that editing is open: it was accepted by a step of the run, and no step in between finished or
cancelled it, opened another one, or brought another workspace or one without the entry. An editing
that was accepted once asks for a new name once at most, and as long as it is open no file is
shown. -/
theorem rename_session (workspace : Workspace) (settings : Settings) :
    let b := start workspace settings
    (∀ actions action id name,
      .renameEntry id name ∈ ((b.run actions).dispatch action).2.effects ↔
        (∃ before after, actions = before ++ .beginRename id :: after ∧
          b.EditingOpen before id after) ∧
        ∃ typed e, action = .finishRename typed ∧ Text.trim typed = name ∧ name ≠ "" ∧
          (b.run actions).tree.get? id = some e ∧ e.name ≠ name) ∧
    (∀ before id rest after action after' action',
      after ++ [action] <+: rest → after' ++ [action'] <+: rest →
      b.EditingOpen before id after → b.EditingOpen before id after' →
      b.AsksForName (before ++ .beginRename id :: after) action →
      b.AsksForName (before ++ .beginRename id :: after') action' → after = after') ∧
    (∀ before id after action uri, b.EditingOpen before id after →
      .openViewer uri ∉
        ((b.run (before ++ .beginRename id :: after)).dispatch action).2.effects) := by
  intro b
  have hb : b.editing = none := rfl
  refine ⟨fun actions action id name => ?_, ?_, ?_⟩
  · rw [renameEntry_mem_effects_iff, editing_run_iff hb]
  · intro before id rest after action after' action' hinRest hinRest' hopen hopen' hasks hasks'
    have hafter := (List.prefix_append after [action]).trans hinRest
    have hafter' := (List.prefix_append after' [action']).trans hinRest'
    have hle := hopen.length_le hasks' hinRest' hafter
    have hle' := hopen'.length_le hasks hinRest hafter'
    exact (List.prefix_of_prefix_length_le hafter hafter' hle).eq_of_length_le hle'
  · intro before id after action uri hopen hviewer
    have hediting := (editing_run_iff hb).2 ⟨before, after, rfl, hopen⟩
    cases asks_of_mem_effects hviewer with
    | activate hget hfile hnone =>
      rw [hediting] at hnone
      cases hnone

/-- The editing of a file's name is begun, given up for another one and begun again; it outlasts a
click and a fetch, and then the new name is asked for. -/
theorem rename_session_resumed :
    let b := start (workspaceOf twoFoldersTree) {}
    let actions := [.beginRename "x", .beginRename "c", .beginRename "x", .click "c" .none,
      .replaceWorkspace (workspaceOf twoFoldersTree)]
    .renameEntry "x" "Y" ∈ ((b.run actions).dispatch (.finishRename " Y ")).2.effects ∧
      ∃ before after, actions = before ++ .beginRename "x" :: after ∧
        b.EditingOpen before "x" after := by
  intro b actions
  have heffect : .renameEntry "x" "Y" ∈
      ((b.run actions).dispatch (.finishRename " Y ")).2.effects := by
    decide +kernel
  obtain ⟨hiff, -, -⟩ := rename_session (workspaceOf twoFoldersTree) {}
  exact ⟨heffect, ((hiff actions _ _ _).1 heffect).1⟩

end TreeBrowser.Browser
