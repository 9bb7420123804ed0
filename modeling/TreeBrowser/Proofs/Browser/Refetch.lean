import TreeBrowser.Proofs.Browser.Change
import TreeBrowser.Proofs.Workspace.RoundTrip
import TreeBrowser.Proofs.Workspace.Samples

/-!
# Fetching again

A workspace that is fetched again takes out of the state what it does not hold any more, and nothing
else. One that is fetched just as it was therefore goes unnoticed: wherever such fetches are put
into a run, and however many, all other actions are answered as before and the run comes to the same
state.
-/

namespace TreeBrowser

/-- Two workspaces are made of one snapshot. -/
def Workspace.SameSnapshot (w w' : Workspace) : Prop :=
  ∃ s, ofSnapshot s = .ok w ∧ ofSnapshot s = .ok w'

theorem Workspace.SameSnapshot.eq {w w' : Workspace} (h : w.SameSnapshot w') : w = w' := by
  obtain ⟨s, hw, hw'⟩ := h
  rw [hw] at hw'
  exact Except.ok.inj hw'

theorem Workspace.sameSnapshot_refl (w : Workspace) : w.SameSnapshot w := by
  have hw : ofSnapshot w.toSnapshot = .ok w :=
    ofSnapshot_eq_ok_iff.2 ⟨rfl, Tree.ofSnapshot_toSnapshot w.tree⟩
  exact ⟨_, hw, hw⟩

/-- A turn of a run: an action of the run itself, or a fetch that is put in between. -/
inductive Turn where
  | own (action : Action)
  | refetch (workspace : Workspace)

namespace Turn

def action : Turn → Action
  | .own action => action
  | .refetch workspace => .replaceWorkspace workspace

def own? : Turn → Option Action
  | .own action => some action
  | .refetch _ => none

end Turn

namespace Browser

variable {b b' : Browser} {w : Workspace}

/-! ## What survives -/

/-- The second state is the first one with the workspace `w`, and with what it held of entries that
are in `w`, open only where they are folders. -/
structure KeepsSurvivors (b : Browser) (w : Workspace) (b' : Browser) : Prop where
  workspace : b'.workspace = w
  columns : b'.columns = b.columns
  missingEndpoint : b'.missingEndpoint = b.missingEndpoint
  selected : b'.selection.selected = b.selection.selected.filter w.tree.contains
  lastRange : b'.selection.lastRange = b.selection.lastRange.filter w.tree.contains
  focused : ∀ id, b'.selection.focused = some id ↔
    b.selection.focused = some id ∧ w.tree.contains id = true
  cursor : ∀ id, b'.cursor = some id ↔ b.cursor = some id ∧ w.tree.contains id = true
  editing : ∀ id, b'.editing = some id ↔ b.editing = some id ∧ w.tree.contains id = true
  expanded : ∀ id, b'.expanded.contains id = true ↔
    b.expanded.contains id = true ∧ w.tree.isNode id = true

theorem keepsSurvivors_refetched (b : Browser) (w : Workspace) :
    b.KeepsSurvivors w (b.refetched w) where
  workspace := rfl
  columns := rfl
  missingEndpoint := rfl
  selected := rfl
  lastRange := rfl
  focused _ := Option.filter_eq_some_iff
  cursor _ := Option.filter_eq_some_iff
  editing _ := Option.filter_eq_some_iff
  expanded _ := Expansion.contains_filter

theorem keepsSurvivors_replaceWorkspace (h : w.id = b.workspace.id) :
    b.KeepsSurvivors w (b.replaceWorkspace w).1 := by
  rw [replaceWorkspace, if_pos h]
  exact b.keepsSurvivors_refetched w

/-! ## Fetches that bring nothing new -/

def outcomes (b : Browser) : List Action → List Outcome
  | [] => []
  | action :: rest => (b.dispatch action).2 :: (b.dispatch action).1.outcomes rest

/-- What a run is answered to its own actions. -/
def ownOutcomes (b : Browser) : List Turn → List Outcome
  | [] => []
  | .own action :: rest => (b.dispatch action).2 :: (b.dispatch action).1.ownOutcomes rest
  | .refetch w :: rest => (b.dispatch (.replaceWorkspace w)).1.ownOutcomes rest

/-- Each fetch that is put into the run brings the workspace that is there already. -/
def Unmoved (b : Browser) (turns : List Turn) : Prop :=
  ∀ before w after, turns = before ++ .refetch w :: after →
    (b.run (before.map Turn.action)).workspace.SameSnapshot w

theorem unmoved_cons_iff {turn : Turn} {turns : List Turn} :
    b.Unmoved (turn :: turns) ↔ (∀ w, turn = .refetch w → b.workspace.SameSnapshot w) ∧
      (b.dispatch turn.action).1.Unmoved turns := by
  constructor
  · intro h
    constructor
    · rintro w rfl
      exact h [] w turns rfl
    · rintro before w after rfl
      exact h (turn :: before) w after rfl
  · rintro ⟨hfirst, hrest⟩ before w after hturns
    cases before with
    | nil =>
      obtain ⟨rfl, rfl⟩ := List.cons.inj hturns
      exact hfirst w rfl
    | cons _ before =>
      obtain ⟨rfl, htail⟩ := List.cons.inj hturns
      exact hrest before w after htail

theorem workspace_run {actions : List Action} (hb : b.workspace = w)
    (h : ∀ w', .replaceWorkspace w' ∈ actions → w' = w) : (b.run actions).workspace = w := by
  induction actions generalizing b with
  | nil => exact hb
  | cons action actions ih =>
    have hrest := fun w' hw' => h w' (List.mem_cons_of_mem _ hw')
    refine ih ?_ hrest
    by_cases hbrings : ∃ w', action = .replaceWorkspace w'
    · obtain ⟨w', rfl⟩ := hbrings
      rw [workspace_dispatch_replaceWorkspace]
      exact h w' List.mem_cons_self
    · rw [not_exists] at hbrings
      rw [(b.moves_dispatch action).workspace hbrings, hb]

theorem unmoved_of_workspace {turns : List Turn} (hb : b.workspace = w)
    (h : ∀ w', .replaceWorkspace w' ∈ turns.map Turn.action → w' = w) : b.Unmoved turns := by
  rintro before fetched after rfl
  simp only [List.map_append, List.map_cons, List.mem_append, List.mem_cons] at h
  obtain rfl : fetched = w := h fetched (Or.inr (Or.inl rfl))
  rw [workspace_run hb fun w' hw' => h w' (Or.inl hw')]
  exact fetched.sameSnapshot_refl

theorem Sound.replaceWorkspace_self (h : b.Sound) :
    (b.dispatch (.replaceWorkspace b.workspace)).1 = b :=
  h.replaceWorkspace_eq rfl (fun _ => id) fun _ => id

theorem Sound.run_of_unmoved (hb : b.Sound) {turns : List Turn} (h : b.Unmoved turns) :
    b.ownOutcomes turns = b.outcomes (turns.filterMap Turn.own?) ∧
      b.run (turns.map Turn.action) = b.run (turns.filterMap Turn.own?) := by
  induction turns generalizing b with
  | nil => exact ⟨rfl, rfl⟩
  | cons turn turns ih =>
    obtain ⟨hfirst, htail⟩ := unmoved_cons_iff.1 h
    have hrest := ih (hb.dispatch turn.action) htail
    cases turn with
    | own action => exact ⟨congrArg _ hrest.1, hrest.2⟩
    | refetch w =>
      have hstays : (b.dispatch (Turn.refetch w).action).1 = b := by
        rw [← (hfirst w rfl).eq]
        exact hb.replaceWorkspace_self
      show Browser.ownOutcomes (b.dispatch (Turn.refetch w).action).1 turns =
          b.outcomes (turns.filterMap Turn.own?) ∧
        Browser.run (b.dispatch (Turn.refetch w).action).1 (turns.map Turn.action) =
          b.run (turns.filterMap Turn.own?)
      rw [hstays] at hrest ⊢
      exact hrest

/-- In every reachable state, a workspace that is fetched again under its id leaves the columns and
the policy alone, and of all else that the state holds exactly what is still there. Therefore a run
does not tell whether workspaces of the current snapshot are fetched in between: however often and
wherever that is done, its own actions are answered alike and it comes to the same state. -/
theorem refetch_keeps_survivors (hb : b.Reachable) :
    (∀ w : Workspace, w.id = b.workspace.id →
      b.KeepsSurvivors w (b.dispatch (.replaceWorkspace w)).1) ∧
    ∀ turns : List Turn, b.Unmoved turns →
      b.ownOutcomes turns = b.outcomes (turns.filterMap Turn.own?) ∧
        b.run (turns.map Turn.action) = b.run (turns.filterMap Turn.own?) :=
  ⟨fun _ => keepsSurvivors_replaceWorkspace, fun _ => hb.sound.run_of_unmoved⟩

/-- A file is selected in an open folder, and another one is being renamed. When a workspace comes
that has the folder alone, it stays open and nothing is selected any more; when the same one comes,
nothing is noticed. -/
theorem refetch_keeps_folder :
    let same := workspaceOf twoFoldersTree
    let b := (start same {}).run [.expand "a", .click "x" .none, .beginRename "c"]
    let smaller := (b.dispatch (.replaceWorkspace (workspaceOf outerTree))).1
    let turns := [.refetch same, .own (.collapse "a"), .refetch same, .refetch same,
      .own (.finishRename "C")]
    b.Reachable ∧ (workspaceOf outerTree).id = b.workspace.id ∧
      smaller.selection.selected = [] ∧ smaller.expanded.contains "a" = true ∧
      smaller.editing ≠ some "c" ∧ b.Unmoved turns ∧
      b.ownOutcomes turns = b.outcomes [.collapse "a", .finishRename "C"] := by
  intro same b smaller turns
  have hreachable : b.Reachable := (Reachable.start _ _).run _
  have hworkspace : b.workspace = same := workspace_run rfl (by simp)
  have hid : (workspaceOf outerTree).id = b.workspace.id := by
    rw [hworkspace]
    rfl
  have hunmoved : b.Unmoved turns :=
    unmoved_of_workspace hworkspace (by simp [turns, Turn.action])
  obtain ⟨hkeeps, hunnoticed⟩ := refetch_keeps_survivors hreachable
  have hsmaller := hkeeps (workspaceOf outerTree) hid
  refine ⟨hreachable, hid, ?_, ?_, ?_, hunmoved, (hunnoticed turns hunmoved).1⟩
  · rw [hsmaller.selected]
    rfl
  · exact (hsmaller.expanded "a").2 ⟨rfl, rfl⟩
  · intro hediting
    exact absurd ((hsmaller.editing "c").1 hediting).2 (by decide)

end Browser

end TreeBrowser
