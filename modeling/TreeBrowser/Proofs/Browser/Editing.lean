import TreeBrowser.Proofs.Browser.Run

/-!
# Editing a name

The editing of the name of an entry is opened by an action that begins it, and goes on through
whatever else is done until an action ends it. A step changes it in no other way, so what is being
edited can be told from the run.
-/

namespace TreeBrowser.Browser

variable {b : Browser} {action : Action} {id : EntryId}

/-- The action opens the editing of the name of `id`, which is an entry other than the root. -/
def BeginsEditing (b : Browser) (id : EntryId) (action : Action) : Prop :=
  action = .beginRename id ∧ b.isEditable id = true

/-- The action ends the editing of the name of `id`: it finishes or cancels it, opens the editing of
another name, or brings another workspace or one in which the entry is not. -/
def EndsEditing (b : Browser) (id : EntryId) : Action → Prop
  | .finishRename _ => True
  | .cancelRename => True
  | .beginRename other => other ≠ id ∧ b.isEditable other = true
  | .replaceWorkspace w => w.id ≠ b.workspace.id ∨ w.tree.contains id = false
  | _ => False

/-- After the actions `before`, an action opened the editing of the name of `id`, and the actions
`after` that followed it have not ended it. -/
structure EditingOpen (b : Browser) (before : List Action) (id : EntryId) (after : List Action) :
    Prop where
  accepted : (b.run before).isEditable id = true
  since : ∀ kept next, kept ++ [next] <+: after →
    ¬ (b.run (before ++ .beginRename id :: kept)).EndsEditing id next

/-! ## One step -/

theorem editing_click (b : Browser) (id : EntryId) (modifiers : Modifiers) :
    (b.click id modifiers).1.editing = b.editing := by
  unfold click
  split <;> rfl

theorem editing_activate (b : Browser) (id : EntryId) :
    (b.activate id).1.editing = b.editing := by
  unfold activate
  split
  · rfl
  · split
    · rfl
    · split
      · rfl
      · split <;> rfl

theorem editing_beginRename_iff {other : EntryId} :
    (b.beginRename other).1.editing = some id ↔
      other = id ∧ b.isEditable id = true ∨
        b.editing = some id ∧ ¬ (other ≠ id ∧ b.isEditable other = true) := by
  unfold beginRename
  by_cases hother : other = id
  · subst hother
    cases heditable : b.isEditable other <;> simp
  · cases heditable : b.isEditable other <;> simp [hother]

theorem editing_finishRename (b : Browser) (name : String) :
    (b.finishRename name).1.editing = none := by
  unfold finishRename
  split
  · assumption
  · rfl

theorem editing_replaceWorkspace_iff {w : Workspace} :
    (b.replaceWorkspace w).1.editing = some id ↔
      b.editing = some id ∧ ¬ (w.id ≠ b.workspace.id ∨ w.tree.contains id = false) := by
  unfold replaceWorkspace
  by_cases hid : w.id = b.workspace.id
  · simp [hid, refetched, Option.filter_eq_some_iff]
  · simp [hid, switchTo]

/-- A name is being edited after a step when the step opens the editing, or when it was open before
and the step does not end it. -/
theorem editing_dispatch_iff (b : Browser) (action : Action) :
    (b.dispatch action).1.editing = some id ↔
      b.BeginsEditing id action ∨ b.editing = some id ∧ ¬ b.EndsEditing id action := by
  have hidle (h : (b.dispatch action).1.editing = b.editing) (hbegins : action ≠ .beginRename id)
      (hends : ¬ b.EndsEditing id action) : (b.dispatch action).1.editing = some id ↔
        b.BeginsEditing id action ∨ b.editing = some id ∧ ¬ b.EndsEditing id action := by
    simp [h, BeginsEditing, hbegins, hends]
  cases action with
  | beginRename other =>
    show (b.beginRename other).1.editing = some id ↔ _
    rw [editing_beginRename_iff]
    simp [BeginsEditing, EndsEditing]
  | finishRename name =>
    simp [dispatch, editing_finishRename, BeginsEditing, EndsEditing]
  | cancelRename => simp [dispatch, cancelRename, BeginsEditing, EndsEditing]
  | replaceWorkspace w =>
    show (b.replaceWorkspace w).1.editing = some id ↔ _
    rw [editing_replaceWorkspace_iff]
    simp [BeginsEditing, EndsEditing]
  | click other modifiers => exact hidle (b.editing_click other modifiers) (by simp) not_false
  | focusAdjacent delta modifiers =>
    refine hidle ?_ (by simp) not_false
    simp only [dispatch, focusAdjacent]
    split
    · exact b.editing_click _ modifiers
    · rfl
  | activate other => exact hidle (b.editing_activate other) (by simp) not_false
  | drop dragged target =>
    refine hidle ?_ (by simp) not_false
    simp only [dispatch, drop]
    split <;> rfl
  | createFolder name =>
    refine hidle ?_ (by simp) not_false
    simp only [dispatch, createFolder]
    split <;> rfl
  | remove other =>
    refine hidle ?_ (by simp) not_false
    simp only [dispatch, remove]
    split <;> rfl
  | tick =>
    refine hidle ?_ (by simp) not_false
    simp only [dispatch, tick]
    split <;> rfl
  | _ => exact hidle rfl (by simp) not_false

/-! ## Whole runs -/

theorem editing_run_iff (hb : b.editing = none) {actions : List Action} :
    (b.run actions).editing = some id ↔ ∃ before after,
      actions = before ++ .beginRename id :: after ∧ b.EditingOpen before id after := by
  have hclosed : b.editing ≠ some id := by simp [hb]
  rw [holds_after_run_iff (fun b => b.editing = some id) editing_dispatch_iff hclosed]
  constructor
  · rintro ⟨before, _, after, rfl, ⟨rfl, haccepted⟩, hsince⟩
    exact ⟨before, after, rfl, haccepted, hsince⟩
  · rintro ⟨before, after, rfl, haccepted, hsince⟩
    exact ⟨before, _, after, rfl, ⟨rfl, haccepted⟩, hsince⟩

end TreeBrowser.Browser
