import Mathlib.Logic.Relation
import TreeBrowser.Proofs.Move
import TreeBrowser.Proofs.Tree.Nesting

/-!
# Moves without cycles

When entries are put into a folder at once, that folder becomes the parent of each of them, and all
others keep theirs. The moves that are let through are those of known entries into a folder after
which no way from parent to parent comes back to where it began. Of a move that is refused, the first
entry that is in the way tells why.
-/

namespace TreeBrowser.Tree

variable {α : Type} {t : Tree α} {ids : List EntryId} {target id ancestor : EntryId}

/-- The parent of an entry when all of `ids` have been put into `target` at once. -/
def movedParent? (t : Tree α) (ids : List EntryId) (target id : EntryId) : Option EntryId :=
  if id ∈ ids then some target else (t.parent? id).map Entry.id

/-- A way leads from `id` up to `ancestor` when all of `ids` have been put into `target`. -/
def MovedBelow (t : Tree α) (ids : List EntryId) (target : EntryId) : EntryId → EntryId → Prop :=
  Relation.TransGen fun id parent => t.movedParent? ids target id = some parent

/-- Nothing lies below itself when all of `ids` have been put into `target`. -/
def AcyclicMoved (t : Tree α) (ids : List EntryId) (target : EntryId) : Prop :=
  ∀ id, ¬ t.MovedBelow ids target id id

theorem movedParent?_of_mem (hid : id ∈ ids) : t.movedParent? ids target id = some target :=
  if_pos hid

theorem movedParent?_of_not_mem (hid : id ∉ ids) :
    t.movedParent? ids target id = (t.parent? id).map Entry.id :=
  if_neg hid

theorem eq_target_or_isDescendantOf {parent : EntryId}
    (h : t.movedParent? ids target id = some parent) :
    id ∈ ids ∧ parent = target ∨ id ∉ ids ∧ t.isDescendantOf id parent = true := by
  by_cases hid : id ∈ ids
  · rw [movedParent?_of_mem hid, Option.some.injEq] at h
    exact Or.inl ⟨hid, h.symm⟩
  · rw [movedParent?_of_not_mem hid, Option.map_eq_some_iff] at h
    obtain ⟨p, hp, hpid⟩ := h
    exact Or.inr ⟨hid, isDescendantOf_iff_parent?.2 ⟨p, hp, Or.inl hpid⟩⟩

/-- A way up leads along the old one, or it passes the folder that takes the entries. -/
theorem MovedBelow.old_or_through_target (h : t.MovedBelow ids target id ancestor) :
    t.isDescendantOf id ancestor = true ∨
      ancestor = target ∨ t.isDescendantOf target ancestor = true := by
  induction h with
  | single hstep =>
    rcases eq_target_or_isDescendantOf hstep with ⟨-, rfl⟩ | ⟨-, hold⟩
    · exact Or.inr (Or.inl rfl)
    · exact Or.inl hold
  | tail _ hstep ih =>
    rcases eq_target_or_isDescendantOf hstep with ⟨-, rfl⟩ | ⟨-, hold⟩
    · exact Or.inr (Or.inl rfl)
    · rcases ih with hbelow | rfl | hbelow
      · exact Or.inl (isDescendantOf_trans hbelow hold)
      · exact Or.inr (Or.inr hold)
      · exact Or.inr (Or.inr (isDescendantOf_trans hbelow hold))

/-- From the folder that takes the entries and from all around it, the way up is the old one as long
as none of them is moved. -/
theorem MovedBelow.old_of_safe
    (hsafe : ∀ moved ∈ ids, moved ≠ target ∧ t.isDescendantOf target moved = false)
    (hid : id = target ∨ t.isDescendantOf target id = true)
    (h : t.MovedBelow ids target id ancestor) : t.isDescendantOf id ancestor = true := by
  have hstays {x : EntryId} (hx : x = target ∨ t.isDescendantOf target x = true) : x ∉ ids := by
    intro hmem
    obtain ⟨hne, hdesc⟩ := hsafe x hmem
    rcases hx with heq | hbelow
    · exact hne heq
    · rw [hdesc] at hbelow
      cases hbelow
  induction h with
  | single hstep =>
    rcases eq_target_or_isDescendantOf hstep with ⟨hmem, -⟩ | ⟨-, hold⟩
    · exact absurd hmem (hstays hid)
    · exact hold
  | @tail x _ _ hstep ih =>
    have hx : t.isDescendantOf target x = true := by
      rcases hid with rfl | hbelow
      · exact ih
      · exact isDescendantOf_trans hbelow ih
    rcases eq_target_or_isDescendantOf hstep with ⟨hmem, -⟩ | ⟨-, hold⟩
    · exact absurd hmem (hstays (Or.inr hx))
    · exact isDescendantOf_trans ih hold

/-- When none of the moved entries is the folder or encloses it, each way up ends. -/
theorem acyclicMoved_of_safe
    (hsafe : ∀ moved ∈ ids, moved ≠ target ∧ t.isDescendantOf target moved = false) :
    t.AcyclicMoved ids target := by
  intro id hcycle
  -- A way back to `id` would be an old one, or `id` would be the folder or around it.
  have haround : id = target ∨ t.isDescendantOf target id = true := by
    rcases hcycle.old_or_through_target with hself | haround
    · exact absurd hself (not_isDescendantOf_self t id)
    · exact haround
  exact not_isDescendantOf_self t id (hcycle.old_of_safe hsafe haround)

/-- From what is moved, and from what lies in it, a way leads up to the folder. -/
theorem movedBelow_target {e : Entry α} (he : e ∈ t.entries)
    (h : e.id ∈ ids ∨ t.hasAncestorIn ids e.id = true) : t.MovedBelow ids target e.id target := by
  -- From an entry that is not moved itself, one step leads to its folder, to which the same applies.
  induction he using entries_induction with
  | root =>
    rw [hasAncestorIn, ancestors_root, List.any_nil] at h
    exact .single (movedParent?_of_mem (by simpa using h))
  | child q hq ih c hc =>
    by_cases hmoved : c.id ∈ ids
    · exact .single (movedParent?_of_mem hmoved)
    · have hfolder := (hasAncestorIn_child hq hc).1 (h.resolve_left hmoved)
      have hstep : t.movedParent? ids target c.id = some q.id := by
        rw [movedParent?_of_not_mem hmoved, parent?_child hq hc, Option.map_some]
      exact .head hstep (ih hfolder)

theorem acyclicMoved_iff (htarget : t.contains target = true) :
    t.AcyclicMoved ids target ↔
      ∀ id ∈ ids, id ≠ target ∧ t.isDescendantOf target id = false := by
  refine ⟨fun hacyclic id hid => ?_, acyclicMoved_of_safe⟩
  obtain ⟨e, he, rfl⟩ := contains_iff.1 htarget
  constructor
  · rintro rfl
    exact hacyclic _ (movedBelow_target he (Or.inl hid))
  · rw [Bool.eq_false_iff]
    intro hdesc
    exact hacyclic _ (movedBelow_target he (Or.inr (hasAncestorIn_of_isDescendantOf hid hdesc)))

/-! ## Refused moves -/

inductive Hinders (t : Tree α) (target id : EntryId) : MoveError → Prop
  | unknown : t.contains id = false → t.Hinders target id (.unknownEntry id)
  | encloses : t.contains id = true → id = target ∨ t.isDescendantOf target id = true →
      t.Hinders target id (.intoDescendant id target)

/-- Why a move is refused: the target is not known, or is a file, or is a folder and an entry is in
the way, of which the first one counts. -/
inductive Refusal (t : Tree α) (ids : List EntryId) (target : EntryId) : MoveError → Prop
  | unknownTarget : t.contains target = false → t.Refusal ids target (.unknownEntry target)
  | fileTarget : t.contains target = true → t.isNode target = false →
      t.Refusal ids target (.targetNotNode target)
  | hindered {before after : List EntryId} {id : EntryId} {fault : MoveError} :
      t.isNode target = true → ids = before ++ id :: after → t.Hinders target id fault →
      (∀ other ∈ before, ∀ fault, ¬ t.Hinders target other fault) → t.Refusal ids target fault

theorem moveFault?_eq_some_iff {fault : MoveError} :
    t.moveFault? target id = some fault ↔ t.Hinders target id fault := by
  unfold moveFault?
  constructor
  · intro h
    split at h
    · rename_i hunknown
      cases h
      exact .unknown (by simpa using hunknown)
    · rename_i hknown
      split at h
      · rename_i haround
        cases h
        exact .encloses (by simpa using hknown) (by simpa using haround)
      · cases h
  · rintro (hunknown | ⟨hknown, haround⟩)
    · simp [hunknown]
    · simp [hknown, haround]

theorem findSome?_moveFault?_eq_some_iff {fault : MoveError} :
    ids.findSome? (t.moveFault? target) = some fault ↔
      ∃ before id after, ids = before ++ id :: after ∧ t.Hinders target id fault ∧
        ∀ other ∈ before, ∀ fault, ¬ t.Hinders target other fault := by
  have hnone (other : EntryId) : t.moveFault? target other = none ↔
      ∀ fault, ¬ t.Hinders target other fault := by
    rw [Option.eq_none_iff_forall_ne_some]
    simp only [ne_eq, moveFault?_eq_some_iff]
  rw [List.findSome?_eq_some_iff]
  simp only [moveFault?_eq_some_iff, hnone]

theorem checkMove_eq_error_iff {fault : MoveError} :
    t.checkMove ids target = .error fault ↔ t.Refusal ids target fault := by
  constructor
  · intro h
    cases hknown : t.contains target with
    | false =>
      rw [checkMove_of_unknown hknown] at h
      cases h
      exact .unknownTarget hknown
    | true =>
      cases hnode : t.isNode target with
      | false =>
        rw [checkMove_of_file hknown hnode] at h
        cases h
        exact .fileTarget hknown hnode
      | true =>
        rw [checkMove_of_folder hnode] at h
        cases hfault : ids.findSome? (t.moveFault? target) with
        | none =>
          rw [hfault] at h
          cases h
        | some first =>
          rw [hfault] at h
          cases h
          obtain ⟨before, id, after, hids, hid, hbefore⟩ :=
            findSome?_moveFault?_eq_some_iff.1 hfault
          exact .hindered hnode hids hid hbefore
  · rintro (hunknown | ⟨hknown, hfile⟩ | ⟨hnode, hids, hid, hbefore⟩)
    · exact checkMove_of_unknown hunknown
    · exact checkMove_of_file hknown hfile
    · have hfault := findSome?_moveFault?_eq_some_iff.2 ⟨_, _, _, hids, hid, hbefore⟩
      rw [checkMove_of_folder hnode, hfault, Option.elim_some]

/-- Entries may go into `target` exactly when it is a folder, all of them are known, and nothing
would lie below itself once the folder is the parent of each of them. Otherwise the reason says that
the target is not known or is a file, or it is about the first entry in the list that is not known,
is the target or encloses it. -/
theorem checkMove_accepts_acyclic (t : Tree α) (ids : List EntryId) (target : EntryId) :
    (t.checkMove ids target = .ok () ↔
      t.isNode target = true ∧ (∀ id ∈ ids, t.contains id = true) ∧ t.AcyclicMoved ids target) ∧
    ∀ fault, t.checkMove ids target = .error fault ↔ t.Refusal ids target fault := by
  refine ⟨?_, fun fault => checkMove_eq_error_iff⟩
  rw [checkMove_eq_ok_iff]
  refine and_congr_right fun hnode => ?_
  rw [acyclicMoved_iff (contains_of_isNode hnode), ← forall₂_and]

/-- Of two entries in the way the first one in the list is named, though it is the other one that
encloses the folder. -/
example : threeDeepTree.checkMove ["c", "lost", "a"] "b" = .error (.unknownEntry "lost") := rfl

end TreeBrowser.Tree
