import Mathlib.Data.List.Induction
import TreeBrowser.Browser.Step

/-!
# Runs of a browser

A run dispatches actions one after another. A browser is reachable when a run comes to it from a
start; what holds at every start and after every step holds of all that is reachable.
-/

namespace TreeBrowser.Browser

def run (b : Browser) (actions : List Action) : Browser :=
  actions.foldl (fun b action => (b.dispatch action).1) b

theorem run_append (b : Browser) (actions : List Action) (action : Action) :
    b.run (actions ++ [action]) = ((b.run actions).dispatch action).1 := by
  rw [run, List.foldl_append]
  rfl

/-- What a step makes true when it begins it, and leaves true unless it ends it, holds after a run
when one of the actions began it and none has ended it since. -/
theorem holds_after_run_iff (P : Browser → Prop) {Begins Ends : Browser → Action → Prop}
    (hstep : ∀ b action, P (b.dispatch action).1 ↔ Begins b action ∨ P b ∧ ¬ Ends b action)
    {b : Browser} (hb : ¬ P b) {actions : List Action} :
    P (b.run actions) ↔ ∃ before action after, actions = before ++ action :: after ∧
      Begins (b.run before) action ∧
      ∀ kept next, kept ++ [next] <+: after → ¬ Ends (b.run (before ++ action :: kept)) next := by
  -- On the end of the run: either the last action begins it, or it held before and is not ended.
  induction actions using List.reverseRecOn with
  | nil => simpa [run] using hb
  | append_singleton actions last ih =>
    rw [run_append, hstep, ih]
    constructor
    · rintro (hbegins | ⟨⟨before, action, after, rfl, hbegins, hsince⟩, hlast⟩)
      · exact ⟨actions, last, [], rfl, hbegins, by simp⟩
      · refine ⟨before, action, after ++ [last], by simp, hbegins, fun kept next hkept => ?_⟩
        rcases List.prefix_concat_iff.1 hkept with heq | hkept
        · obtain ⟨rfl, rfl⟩ : kept = after ∧ next = last := by simpa using heq
          exact hlast
        · exact hsince kept next hkept
    · rintro ⟨before, action, after, hactions, hbegins, hsince⟩
      rcases List.eq_nil_or_concat after with rfl | ⟨after, next, rfl⟩
      · obtain ⟨rfl, rfl⟩ : actions = before ∧ last = action := by simpa using hactions
        exact Or.inl hbegins
      · rw [List.concat_eq_append] at hactions hsince
        rw [← List.cons_append, ← List.append_assoc] at hactions
        obtain ⟨rfl, hnext⟩ := List.append_inj' hactions rfl
        obtain rfl := List.singleton_inj.1 hnext
        refine Or.inr ⟨⟨before, action, after, rfl, hbegins, fun kept next hkept => ?_⟩, ?_⟩
        · exact hsince kept next (hkept.trans (List.prefix_append _ _))
        · exact hsince after last (List.prefix_refl _)

inductive Reachable : Browser → Prop
  | start (workspace : Workspace) (settings : Settings) : Reachable (start workspace settings)
  | step {b : Browser} (action : Action) : Reachable b → Reachable (b.dispatch action).1

theorem Reachable.run {b : Browser} (h : b.Reachable) (actions : List Action) :
    (b.run actions).Reachable := by
  induction actions generalizing b with
  | nil => exact h
  | cons action actions ih => exact ih (h.step action)

theorem reachable_iff_run {b : Browser} :
    b.Reachable ↔ ∃ workspace settings actions, b = (start workspace settings).run actions := by
  constructor
  · intro h
    induction h with
    | start workspace settings => exact ⟨workspace, settings, [], rfl⟩
    | step action _ ih =>
      obtain ⟨workspace, settings, actions, rfl⟩ := ih
      exact ⟨workspace, settings, actions ++ [action], (run_append _ _ _).symm⟩
  · rintro ⟨workspace, settings, actions, rfl⟩
    exact (Reachable.start workspace settings).run actions

end TreeBrowser.Browser
