import TreeBrowser.Move
import TreeBrowser.Proofs.Tree.RoundTrip
import TreeBrowser.Proofs.Tree.Ancestry

/-!
# What a move takes along and where it may go

The entries that a drag moves are the topmost ones of the selection: none of them lies below
another, and each selected entry is one of them or lies below one. No smaller choice of selected
entries takes the whole selection along. A move is let through exactly when it goes into a folder
that is neither moved nor below what is moved.
-/

namespace TreeBrowser.Tree

variable {α : Type} {t : Tree α}

theorem hasAncestorIn_iff {selected : List EntryId} {id : EntryId} :
    t.hasAncestorIn selected id = true ↔ ∃ a ∈ t.ancestors id, a.id ∈ selected := by
  simp [hasAncestorIn]

theorem hasAncestorIn_of_isDescendantOf {selected : List EntryId} {id ancestor : EntryId}
    (hancestor : ancestor ∈ selected) (h : t.isDescendantOf id ancestor = true) :
    t.hasAncestorIn selected id = true := by
  obtain ⟨a, ha, rfl⟩ := isDescendantOf_iff.1 h
  exact hasAncestorIn_iff.2 ⟨a, ha, hancestor⟩

theorem hasAncestorIn_mono {selected larger : List EntryId} (hsubset : selected ⊆ larger)
    {id : EntryId} (h : t.hasAncestorIn larger id = false) : t.hasAncestorIn selected id = false := by
  rw [Bool.eq_false_iff] at h ⊢
  intro hancestor
  obtain ⟨a, ha, hid⟩ := hasAncestorIn_iff.1 hancestor
  exact h (hasAncestorIn_iff.2 ⟨a, ha, hsubset hid⟩)

theorem hasAncestorIn_congr {selected selected' : List EntryId}
    (h : ∀ id, id ∈ selected ↔ id ∈ selected') (id : EntryId) :
    t.hasAncestorIn selected id = t.hasAncestorIn selected' id := by
  rw [Bool.eq_iff_iff, hasAncestorIn_iff, hasAncestorIn_iff]
  simp only [h]

theorem hasAncestorIn_child {selected : List EntryId} {q c : Entry α} (hq : q ∈ t.entries)
    (hc : c ∈ t.childrenOf q) :
    t.hasAncestorIn selected c.id = true ↔
      q.id ∈ selected ∨ t.hasAncestorIn selected q.id = true := by
  rw [hasAncestorIn_iff, hasAncestorIn_iff, ancestors_child hq hc]
  simp

/-! ## The topmost entries of a selection -/

def topmost (t : Tree α) (selected : List EntryId) : List EntryId :=
  selected.filter fun id => !t.hasAncestorIn selected id

theorem idsToMove_eq_ok_iff {selected : List EntryId} {dragged : EntryId} {ids : List EntryId} :
    t.idsToMove selected dragged = .ok ids ↔ dragged ∈ selected ∧ ids = t.topmost selected := by
  unfold idsToMove
  by_cases hdragged : dragged ∈ selected
  · rw [if_pos (List.contains_iff_mem.2 hdragged)]
    simp [hdragged, topmost, eq_comm]
  · rw [if_neg fun h => hdragged (List.contains_iff_mem.1 h)]
    simp [hdragged]

theorem mem_topmost {selected : List EntryId} {id : EntryId} :
    id ∈ t.topmost selected ↔ id ∈ selected ∧ t.hasAncestorIn selected id = false := by
  simp [topmost]

theorem topmost_sublist (selected : List EntryId) : (t.topmost selected).Sublist selected :=
  List.filter_sublist

theorem not_isDescendantOf_of_mem_topmost {selected : List EntryId} {id other : EntryId}
    (hid : id ∈ t.topmost selected) (hother : other ∈ t.topmost selected) :
    t.isDescendantOf id other = false := by
  cases hdesc : t.isDescendantOf id other with
  | false => rfl
  | true =>
    have hancestor := hasAncestorIn_of_isDescendantOf (mem_topmost.1 hother).1 hdesc
    rw [(mem_topmost.1 hid).2] at hancestor
    cases hancestor

/-- An entry that is selected, or that some selected entry encloses, goes along with a topmost
one. -/
theorem exists_mem_topmost_of_entry {selected : List EntryId} {e : Entry α} (he : e ∈ t.entries)
    (h : e.id ∈ selected ∨ t.hasAncestorIn selected e.id = true) :
    ∃ top ∈ t.topmost selected, e.id = top ∨ t.isDescendantOf e.id top = true := by
  induction he using entries_induction with
  | root =>
    have hnone : t.hasAncestorIn selected t.root.id = false := by
      rw [hasAncestorIn, ancestors_root, List.any_nil]
    rw [hnone] at h
    have hroot : t.root.id ∈ selected := by simpa using h
    exact ⟨t.root.id, mem_topmost.2 ⟨hroot, hnone⟩, Or.inl rfl⟩
  | child q hq ih c hc =>
    cases hancestor : t.hasAncestorIn selected c.id with
    | true =>
      obtain ⟨top, htop, hq'⟩ := ih ((hasAncestorIn_child hq hc).1 hancestor)
      exact ⟨top, htop, Or.inr ((isDescendantOf_child hq hc top).2 hq')⟩
    | false =>
      rw [hancestor] at h
      have hselected : c.id ∈ selected := by simpa using h
      exact ⟨c.id, mem_topmost.2 ⟨hselected, hancestor⟩, Or.inl rfl⟩

/-- Each selected entry goes along with a topmost one. -/
theorem exists_mem_topmost {selected : List EntryId} {id : EntryId} (hid : id ∈ selected) :
    ∃ top ∈ t.topmost selected, id = top ∨ t.isDescendantOf id top = true := by
  cases hcontains : t.contains id with
  | true =>
    obtain ⟨e, he, rfl⟩ := contains_iff.1 hcontains
    exact exists_mem_topmost_of_entry he (Or.inl hid)
  | false =>
    have hnone : t.hasAncestorIn selected id = false := by
      rw [hasAncestorIn, ancestors_eq_nil hcontains, List.any_nil]
    exact ⟨id, mem_topmost.2 ⟨hid, hnone⟩, Or.inl rfl⟩

theorem topmost_ne_nil {selected : List EntryId} {id : EntryId} (hid : id ∈ selected) :
    t.topmost selected ≠ [] := by
  obtain ⟨top, htop, -⟩ := exists_mem_topmost (t := t) hid
  exact List.ne_nil_of_mem htop

theorem topmost_topmost (selected : List EntryId) :
    t.topmost (t.topmost selected) = t.topmost selected := by
  apply List.filter_eq_self.2
  intro id hid
  rw [hasAncestorIn_mono (topmost_sublist selected).subset (mem_topmost.1 hid).2]
  rfl

theorem topmost_perm {selected selected' : List EntryId} (h : selected.Perm selected') :
    (t.topmost selected).Perm (t.topmost selected') := by
  have hcongr := hasAncestorIn_congr (t := t) fun _ => h.mem_iff
  rw [topmost, topmost, funext hcongr]
  exact h.filter _

/-- All that is selected is one of `tops` or lies below one of them. -/
def Covers (t : Tree α) (tops selected : List EntryId) : Prop :=
  ∀ id ∈ selected, ∃ top ∈ tops, id = top ∨ t.isDescendantOf id top = true

/-- A topmost entry is in every choice of selected entries that takes all the others along: none of
them encloses it. -/
theorem topmost_subset_of_covers {cover selected : List EntryId} (hcover : cover ⊆ selected)
    (h : t.Covers cover selected) : t.topmost selected ⊆ cover := by
  intro id hid
  obtain ⟨hselected, hnone⟩ := mem_topmost.1 hid
  obtain ⟨top, htop, rfl | hdesc⟩ := h id hselected
  · exact htop
  · rw [hasAncestorIn_of_isDescendantOf (hcover htop) hdesc] at hnone
    cases hnone

/-- The ids `tops` are a choice of selected ones, none below another, that takes the selection
along, and they are in every choice that does. -/
structure LeastCover (t : Tree α) (tops selected : List EntryId) : Prop where
  ne_nil : tops ≠ []
  sublist : tops.Sublist selected
  apart : ∀ id ∈ tops, ∀ other ∈ tops, t.isDescendantOf id other = false
  covers : t.Covers tops selected
  least : ∀ cover, cover ⊆ selected → t.Covers cover selected → tops ⊆ cover

theorem leastCover_topmost {selected : List EntryId} {id : EntryId} (hid : id ∈ selected) :
    t.LeastCover (t.topmost selected) selected where
  ne_nil := topmost_ne_nil hid
  sublist := topmost_sublist selected
  apart _ hid _ hother := not_isDescendantOf_of_mem_topmost hid hother
  covers _ hid := exists_mem_topmost hid
  least _ hcover h := topmost_subset_of_covers hcover h

/-- A drag is refused exactly when it starts outside the selection. Otherwise it moves the least
choice of selected entries that takes the selection along, wherever in the selection it starts and
in whatever order the entries were selected, and a selection of just these is moved as it is. -/
theorem idsToMove_least_cover (t : Tree α) (selected : List EntryId) (dragged : EntryId) :
    (t.idsToMove selected dragged = .error (.draggedNotSelected dragged) ↔ dragged ∉ selected) ∧
    (dragged ∈ selected →
      ∃ ids, t.idsToMove selected dragged = .ok ids ∧ t.LeastCover ids selected ∧
        (∀ other ∈ selected, t.idsToMove selected other = .ok ids) ∧
        (∀ reordered, reordered.Perm selected →
          ∃ ids', t.idsToMove reordered dragged = .ok ids' ∧ ids'.Perm ids) ∧
        ∀ top ∈ ids, t.idsToMove ids top = .ok ids) := by
  constructor
  · rw [idsToMove]
    by_cases hdragged : dragged ∈ selected
    · simp [hdragged]
    · simp [hdragged]
  · intro hdragged
    refine ⟨t.topmost selected, idsToMove_eq_ok_iff.2 ⟨hdragged, rfl⟩, leastCover_topmost hdragged,
      fun other hother => idsToMove_eq_ok_iff.2 ⟨hother, rfl⟩, fun reordered hperm => ?_,
      fun top htop => idsToMove_eq_ok_iff.2 ⟨htop, (topmost_topmost selected).symm⟩⟩
    exact ⟨t.topmost reordered, idsToMove_eq_ok_iff.2 ⟨hperm.mem_iff.2 hdragged, rfl⟩,
      topmost_perm hperm⟩

/-- A file is dragged along with the folder around it. One folder is selected twice, and one id is
not known. -/
theorem idsToMove_least_cover_threeDeep :
    let selected := ["x", "lost", "a", "c", "a"]
    "x" ∈ selected ∧ threeDeepTree.idsToMove selected "x" = .ok ["lost", "a", "c", "a"] ∧
      threeDeepTree.LeastCover ["lost", "a", "c", "a"] selected ∧
      threeDeepTree.idsToMove ["lost", "a", "c", "a"] "c" = .ok ["lost", "a", "c", "a"] := by
  intro selected
  have hdragged : "x" ∈ selected := by decide
  have hmoved : threeDeepTree.idsToMove selected "x" = .ok ["lost", "a", "c", "a"] := rfl
  obtain ⟨ids, hok, hleast, -, -, hagain⟩ :=
    (idsToMove_least_cover threeDeepTree selected "x").2 hdragged
  rw [hmoved, Except.ok.injEq] at hok
  subst hok
  exact ⟨hdragged, hmoved, hleast, hagain "c" (by decide)⟩

/-! ## The target of a move -/

theorem moveFault?_eq_none_iff {target id : EntryId} :
    t.moveFault? target id = none ↔
      t.contains id = true ∧ id ≠ target ∧ t.isDescendantOf target id = false := by
  unfold moveFault?
  cases t.contains id with
  | false => simp
  | true => simp

theorem checkMove_of_unknown {ids : List EntryId} {target : EntryId}
    (h : t.contains target = false) :
    t.checkMove ids target = .error (.unknownEntry target) := by
  rw [Table.contains, Option.isSome_eq_false_iff, Option.isNone_iff_eq_none] at h
  rw [checkMove, h]

theorem checkMove_of_file {ids : List EntryId} {target : EntryId} (h : t.contains target = true)
    (hnode : t.isNode target = false) :
    t.checkMove ids target = .error (.targetNotNode target) := by
  obtain ⟨e, he⟩ := Option.isSome_iff_exists.1 h
  rw [isNode, he, Option.any_some] at hnode
  rw [checkMove, he]
  simp only [hnode, Bool.not_false, if_true]

theorem checkMove_of_folder {ids : List EntryId} {target : EntryId}
    (hnode : t.isNode target = true) :
    t.checkMove ids target = (ids.findSome? (t.moveFault? target)).elim (.ok ()) .error := by
  obtain ⟨e, he⟩ := Option.isSome_iff_exists.1 (contains_of_isNode hnode)
  rw [isNode, he, Option.any_some] at hnode
  rw [checkMove, he]
  simp only [hnode, Bool.not_true, Bool.false_eq_true, if_false]
  cases ids.findSome? (t.moveFault? target) <;> rfl

theorem checkMove_eq_ok_iff {ids : List EntryId} {target : EntryId} :
    t.checkMove ids target = .ok () ↔
      t.isNode target = true ∧
        ∀ id ∈ ids, t.contains id = true ∧ id ≠ target ∧ t.isDescendantOf target id = false := by
  cases hknown : t.contains target with
  | false => simp [checkMove_of_unknown hknown, isNode_eq_false hknown]
  | true =>
    cases hnode : t.isNode target with
    | false => simp [checkMove_of_file hknown hnode]
    | true =>
      rw [checkMove_of_folder hnode]
      simp only [← moveFault?_eq_none_iff, ← List.findSome?_eq_none_iff, true_and]
      cases ids.findSome? (t.moveFault? target) <;> simp

/-- What the topmost entries may go into lies in none of the selected ones. -/
theorem safe_of_checkMove_topmost {selected : List EntryId} {target id : EntryId}
    (h : t.checkMove (t.topmost selected) target = .ok ()) (hid : id ∈ selected) :
    id ≠ target ∧ t.isDescendantOf target id = false := by
  obtain ⟨-, hsafe⟩ := checkMove_eq_ok_iff.1 h
  obtain ⟨top, htop, htopmost⟩ := exists_mem_topmost (t := t) hid
  obtain ⟨-, hne, hdesc⟩ := hsafe top htop
  rcases htopmost with rfl | htopmost
  · exact ⟨hne, hdesc⟩
  · -- The selected entry goes along with `top`, and what lies in it lies in `top` too.
    rw [Bool.eq_false_iff] at hdesc ⊢
    refine ⟨?_, fun hbelow => hdesc (isDescendantOf_trans hbelow htopmost)⟩
    rintro rfl
    exact hdesc htopmost

/-- The root goes nowhere, since every folder is the root or below it. -/
theorem root_not_mem_of_checkMove {ids : List EntryId} {target : EntryId}
    (h : t.checkMove ids target = .ok ()) : t.root.id ∉ ids := by
  intro hroot
  obtain ⟨hnode, hsafe⟩ := checkMove_eq_ok_iff.1 h
  obtain ⟨e, he, rfl, -⟩ := isNode_iff.1 hnode
  obtain ⟨-, hne, hdesc⟩ := hsafe _ hroot
  rw [isDescendantOf_root he hne.symm] at hdesc
  cases hdesc

end TreeBrowser.Tree
