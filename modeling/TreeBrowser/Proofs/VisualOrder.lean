import TreeBrowser.Proofs.Columns
import TreeBrowser.Proofs.Tree.Ancestry
import TreeBrowser.VisualOrder

/-!
# The visual order is the recursive flattening

`below` flattens what lies under an entry by plain recursion. The walk with its stack of levels
yields the flattening of the root: what the levels of a walk still owe is the invariant, and each
step pays one row of it.
-/

namespace TreeBrowser

variable {α : Type}

namespace Listing

variable {l : Listing α}

theorem sortedChildren_perm (l : Listing α) (e : Entry α) :
    (l.sortedChildren e).Perm (l.tree.childrenOf e) :=
  Columns.sort_perm _ _

theorem mem_sortedChildren {e c : Entry α} :
    c ∈ l.sortedChildren e ↔ c ∈ l.tree.childrenOf e :=
  (l.sortedChildren_perm e).mem_iff

theorem nodup_sortedChildren {e : Entry α} (he : e ∈ l.tree.entries) :
    (l.sortedChildren e).Nodup :=
  (l.sortedChildren_perm e).nodup_iff.2 ((Tree.childrenOf_nodup he).of_map _)

/-- The rows below an entry: its children in their order, each open folder among them followed by
the rows below it. -/
def below (l : Listing α) (id : EntryId) : List (Entry α) :=
  match _h : l.tree.get? id with
  | none => []
  | some e =>
    (l.sortedChildren e).attach.flatMap fun ⟨c, _hc⟩ =>
      c :: if l.isOpen c then l.below c.id else []
termination_by l.tree.size - l.tree.position id
decreasing_by
  obtain ⟨he, rfl⟩ := Tree.get?_eq_some_iff.1 _h
  have hchild := mem_sortedChildren.1 _hc
  have hlt := Tree.position_lt he hchild
  have hsize := Tree.position_lt_size (Tree.mem_of_mem_childrenOf he hchild)
  omega

def shown (l : Listing α) (e : Entry α) : List (Entry α) :=
  e :: if l.isOpen e then l.below e.id else []

theorem below_eq {e : Entry α} (he : e ∈ l.tree.entries) :
    l.below e.id = (l.sortedChildren e).flatMap l.shown := by
  rw [below]
  split
  · rename_i h
    rw [Tree.get?_of_mem he] at h
    cases h
  · rename_i e' h
    rw [Tree.get?_of_mem he] at h
    cases h
    rw [List.flatMap_subtype (g := l.shown) fun c _ => rfl, List.unattach_attach]

theorem mem_below_iff {e x : Entry α} (he : e ∈ l.tree.entries) :
    x ∈ l.below e.id ↔
      ∃ c ∈ l.tree.childrenOf e, x = c ∨ l.isOpen c = true ∧ x ∈ l.below c.id := by
  rw [below_eq he, List.mem_flatMap]
  apply exists_congr
  intro c
  rw [mem_sortedChildren, shown, List.mem_cons]
  apply and_congr_right
  intro _
  split
  · rename_i hopen
    simp [hopen]
  · rename_i hopen
    simp [hopen]

theorem isDescendantOf_of_mem_below {e x : Entry α} (he : e ∈ l.tree.entries)
    (hx : x ∈ l.below e.id) : x ∈ l.tree.entries ∧ l.tree.isDescendantOf x.id e.id = true := by
  induction he using Tree.children_induction with
  | step e he ih =>
    obtain ⟨c, hc, rfl | ⟨-, hx⟩⟩ := (mem_below_iff he).1 hx
    · exact ⟨Tree.mem_of_mem_childrenOf he hc, (Tree.isDescendantOf_child he hc _).2 (Or.inl rfl)⟩
    · obtain ⟨hmem, hdesc⟩ := ih c hc hx
      have hchild := (Tree.isDescendantOf_child he hc e.id).2 (Or.inl rfl)
      exact ⟨hmem, Tree.isDescendantOf_trans hdesc hchild⟩

theorem of_mem_shown {c x : Entry α} (hc : c ∈ l.tree.entries) (hx : x ∈ l.shown c) :
    x ∈ l.tree.entries ∧ l.tree.Within x c := by
  rw [shown, List.mem_cons] at hx
  rcases hx with rfl | hx
  · exact ⟨hc, Or.inl rfl⟩
  · split at hx
    · obtain ⟨hmem, hdesc⟩ := isDescendantOf_of_mem_below hc hx
      exact ⟨hmem, Or.inr hdesc⟩
    · cases hx

/-- An entry is a row below another one exactly when its folder is that entry or an open row below
it. -/
theorem mem_below_iff_parent {e x q : Entry α} (he : e ∈ l.tree.entries)
    (hq : q ∈ l.tree.entries) (hx : x ∈ l.tree.childrenOf q) :
    x ∈ l.below e.id ↔ q = e ∨ l.isOpen q = true ∧ q ∈ l.below e.id := by
  induction he using Tree.children_induction with
  | step e he ih =>
    constructor
    · intro hmem
      obtain ⟨c, hc, rfl | ⟨hopen, hbelow⟩⟩ := (mem_below_iff he).1 hmem
      · left
        have hparent := ((Tree.mem_childrenOf_iff he).1 hc).2
        rw [((Tree.mem_childrenOf_iff hq).1 hx).2] at hparent
        exact Tree.eq_of_id_eq hq he (Option.some.inj hparent)
      · right
        rcases (ih c hc).1 hbelow with rfl | ⟨hopenq, hqbelow⟩
        · exact ⟨hopen, (mem_below_iff he).2 ⟨q, hc, Or.inl rfl⟩⟩
        · exact ⟨hopenq, (mem_below_iff he).2 ⟨c, hc, Or.inr ⟨hopen, hqbelow⟩⟩⟩
    · rintro (rfl | ⟨hopenq, hqbelow⟩)
      · exact (mem_below_iff he).2 ⟨x, hx, Or.inl rfl⟩
      · obtain ⟨c, hc, rfl | ⟨hopen, hbelow⟩⟩ := (mem_below_iff he).1 hqbelow
        · have hbelow := (mem_below_iff hq).2 ⟨x, hx, Or.inl rfl⟩
          exact (mem_below_iff he).2 ⟨q, hc, Or.inr ⟨hopenq, hbelow⟩⟩
        · exact (mem_below_iff he).2
            ⟨c, hc, Or.inr ⟨hopen, (ih c hc).2 (Or.inr ⟨hopenq, hbelow⟩)⟩⟩

theorem nodup_below {e : Entry α} (he : e ∈ l.tree.entries) : (l.below e.id).Nodup := by
  induction he using Tree.children_induction with
  | step e he ih =>
    rw [below_eq he, List.nodup_flatMap]
    constructor
    · intro c hc
      have hchild := mem_sortedChildren.1 hc
      have hmem := Tree.mem_of_mem_childrenOf he hchild
      rw [shown]
      split
      · refine List.nodup_cons.2 ⟨fun hx => ?_, ih c hchild⟩
        exact Tree.not_isDescendantOf_self _ _ (isDescendantOf_of_mem_below hmem hx).2
      · exact List.nodup_singleton c
    · refine (nodup_sortedChildren he).imp_of_mem ?_
      intro c c' hc hc' hne x hx hx'
      have hchild := mem_sortedChildren.1 hc
      have hchild' := mem_sortedChildren.1 hc'
      obtain ⟨hmem, hxc⟩ := of_mem_shown (Tree.mem_of_mem_childrenOf he hchild) hx
      obtain ⟨-, hxc'⟩ := of_mem_shown (Tree.mem_of_mem_childrenOf he hchild') hx'
      exact hne (Tree.eq_of_common_descendant he hchild hchild' hmem hxc hxc')

theorem length_below_le {e : Entry α} (he : e ∈ l.tree.entries) :
    (l.below e.id).length ≤ l.tree.size :=
  (nodup_below he).length_le_of_subset fun _ hx => (isDescendantOf_of_mem_below he hx).1

/-! ## The walk -/

/-- `l.Yields levels rows`: a walk that stands at `levels` shows `rows`, one after another, and then
comes to its end. -/
inductive Yields (l : Listing α) : List (List (Entry α)) → List (Entry α) → Prop
  | done {levels : List (List (Entry α))} : l.next? levels = none → l.Yields levels []
  | row {levels rest : List (List (Entry α))} {e : Entry α} {rows : List (Entry α)} :
      l.next? levels = some (e, rest) → l.Yields rest rows → l.Yields levels (e :: rows)

/-- The rows that a walk at `levels` has yet to show. -/
def pending (l : Listing α) (levels : List (List (Entry α))) : List (Entry α) :=
  levels.flatMap fun siblings => siblings.flatMap l.shown

def InTree (l : Listing α) (levels : List (List (Entry α))) : Prop :=
  ∀ siblings ∈ levels, ∀ e ∈ siblings, e ∈ l.tree.entries

theorem inTree_cons {siblings : List (Entry α)} {outer : List (List (Entry α))} :
    l.InTree (siblings :: outer) ↔ (∀ e ∈ siblings, e ∈ l.tree.entries) ∧ l.InTree outer :=
  List.forall_mem_cons

theorem inTree_sortedChildren {e : Entry α} (he : e ∈ l.tree.entries) :
    ∀ c ∈ l.sortedChildren e, c ∈ l.tree.entries :=
  fun _ hc => Tree.mem_of_mem_childrenOf he (mem_sortedChildren.1 hc)

theorem pending_of_next?_eq_none {levels : List (List (Entry α))} (h : l.next? levels = none) :
    l.pending levels = [] := by
  induction levels with
  | nil => rfl
  | cons siblings outer ih =>
    cases siblings with
    | nil =>
      rw [next?] at h
      exact ih h
    | cons e rest => cases h

/-- A step shows the first of the rows that are owed, and owes the others from then on. -/
theorem pending_of_next?_eq_some {levels rest : List (List (Entry α))} {e : Entry α}
    (hlevels : l.InTree levels) (h : l.next? levels = some (e, rest)) :
    l.pending levels = e :: l.pending rest ∧ l.InTree rest := by
  induction levels with
  | nil => cases h
  | cons siblings outer ih =>
    rw [inTree_cons] at hlevels
    cases siblings with
    | nil =>
      rw [next?] at h
      exact ih hlevels.2 h
    | cons d siblings =>
      rw [next?, Option.some.injEq, Prod.mk.injEq] at h
      obtain ⟨rfl, rfl⟩ := h
      have hd := hlevels.1 d List.mem_cons_self
      have hlater : l.InTree (siblings :: outer) :=
        inTree_cons.2 ⟨fun e he => hlevels.1 e (List.mem_cons_of_mem _ he), hlevels.2⟩
      by_cases hopen : l.isOpen d = true
      · rw [if_pos hopen]
        refine ⟨?_, inTree_cons.2 ⟨inTree_sortedChildren hd, hlater⟩⟩
        simp only [pending, List.flatMap_cons, shown, if_pos hopen, List.cons_append,
          List.append_assoc]
        rw [below_eq hd]
      · rw [if_neg hopen]
        refine ⟨?_, hlater⟩
        simp only [pending, List.flatMap_cons, shown, if_neg hopen, List.cons_append,
          List.nil_append]

theorem yields_pending {levels : List (List (Entry α))} (hlevels : l.InTree levels) :
    l.Yields levels (l.pending levels) := by
  generalize hrows : l.pending levels = rows
  induction rows generalizing levels with
  | nil =>
    cases hnext : l.next? levels with
    | none => exact Yields.done hnext
    | some step =>
      have hpending := (pending_of_next?_eq_some hlevels hnext).1
      rw [hrows] at hpending
      cases hpending
  | cons e rows ih =>
    cases hnext : l.next? levels with
    | none =>
      rw [pending_of_next?_eq_none hnext] at hrows
      cases hrows
    | some step =>
      obtain ⟨d, rest⟩ := step
      obtain ⟨hpending, hrest⟩ := pending_of_next?_eq_some hlevels hnext
      rw [hrows] at hpending
      obtain ⟨rfl, rfl⟩ := List.cons.inj hpending
      exact Yields.row hnext (ih hrest rfl)

theorem walk_eq_take {levels : List (List (Entry α))} {rows : List (Entry α)}
    (h : l.Yields levels rows) (n : Nat) : l.walk n levels = rows.take n := by
  induction h generalizing n with
  | done hnext =>
    cases n with
    | zero => rfl
    | succ n => rw [walk, hnext, List.take_nil]
  | row hnext _ ih =>
    cases n with
    | zero => rfl
    | succ n => simp only [walk, hnext, List.take_succ_cons, ih]

theorem yields_start (l : Listing α) : l.Yields l.start (l.below l.tree.root.id) := by
  have hstart : l.InTree l.start :=
    inTree_cons.2 ⟨inTree_sortedChildren Tree.root_mem, fun _ h => absurd h List.not_mem_nil⟩
  have hpending : l.pending l.start = l.below l.tree.root.id := by
    rw [below_eq Tree.root_mem, pending, start, List.flatMap_singleton]
  rw [← hpending]
  exact yields_pending hstart

theorem rows_eq_below (l : Listing α) : l.rows = l.below l.tree.root.id := by
  rw [rows, take, walk_eq_take l.yields_start,
    List.take_of_length_le (length_below_le Tree.root_mem)]

/-! ## Siblings that are in order -/

def unsorted (l : Listing α) : Listing α :=
  { l with columns := l.columns.unsorted }

theorem below_unsorted (hsorted : ∀ column ∈ l.columns.active?, ∀ e ∈ l.tree.entries,
    (l.tree.childrenOf e).Pairwise fun x y => (column.order x y).isLE = true)
    {e : Entry α} (he : e ∈ l.tree.entries) : l.unsorted.below e.id = l.below e.id := by
  induction he using Tree.children_induction with
  | step e he ih =>
    have hchildren : l.unsorted.sortedChildren e = l.sortedChildren e :=
      Columns.sort_unsorted fun column hactive => hsorted column hactive e he
    have hshown : ∀ c ∈ l.sortedChildren e, l.unsorted.shown c = l.shown c := by
      intro c hc
      rw [shown, shown, ih c (mem_sortedChildren.1 hc)]
      rfl
    rw [below_eq he, below_eq (l := l.unsorted) he, hchildren, List.flatMap_congr hshown]

/-- When the siblings were sent in the order of the active column, the rows are those of a listing
that need not sort them. -/
theorem ids_unsorted (hsorted : ∀ column ∈ l.columns.active?, ∀ e ∈ l.tree.entries,
    (l.tree.childrenOf e).Pairwise fun x y => (column.order x y).isLE = true) :
    l.unsorted.ids = l.ids := by
  rw [ids, ids, rows_eq_below, rows_eq_below]
  exact congrArg _ (below_unsorted hsorted Tree.root_mem)

/-! ## What is a row -/

theorem mem_entries_of_mem_rows {e : Entry α} (he : e ∈ l.rows) : e ∈ l.tree.entries := by
  rw [rows_eq_below] at he
  exact (isDescendantOf_of_mem_below Tree.root_mem he).1

theorem nodup_ids (l : Listing α) : l.ids.Nodup := by
  rw [ids, rows_eq_below]
  apply List.Nodup.map_on _ (nodup_below Tree.root_mem)
  intro e he e' he' hid
  exact Tree.eq_of_id_eq (isDescendantOf_of_mem_below Tree.root_mem he).1
    (isDescendantOf_of_mem_below Tree.root_mem he').1 hid

theorem root_not_mem_rows (l : Listing α) : l.tree.root ∉ l.rows := by
  rw [rows_eq_below]
  intro h
  exact Tree.not_isDescendantOf_self _ _
    (isDescendantOf_of_mem_below Tree.root_mem h).2

theorem isOpen_iff {e : Entry α} (he : e.isNode = true) :
    l.isOpen e = true ↔ l.expanded.contains e.id = true := by
  rw [isOpen, he, Bool.true_and]

theorem mem_below_iff_ancestors {e x : Entry α} (he : e ∈ l.tree.entries)
    (hx : x ∈ l.tree.entries) :
    x ∈ l.below e.id ↔ l.tree.isDescendantOf x.id e.id = true ∧
      ∀ a ∈ l.tree.ancestors x.id, l.tree.isDescendantOf a.id e.id = true →
        l.expanded.contains a.id = true := by
  induction hx using Tree.entries_induction with
  | root =>
    have hroot : ¬ l.tree.isDescendantOf l.tree.root.id e.id = true := by
      rw [Tree.isDescendantOf_iff, Tree.ancestors_root]
      simp
    exact iff_of_false (fun hbelow => hroot (isDescendantOf_of_mem_below he hbelow).2)
      (fun h => hroot h.1)
  | child q hq ih c hc =>
    rw [mem_below_iff_parent he hq hc, ih, Tree.isDescendantOf_child hq hc,
      Tree.ancestors_child hq hc, List.forall_mem_cons,
      isOpen_iff (Tree.isNode_of_mem_childrenOf hc)]
    constructor
    · rintro (rfl | ⟨hopen, hdesc, hall⟩)
      · -- no entry lies between a folder and its child
        refine ⟨Or.inl rfl, fun hself => absurd hself (Tree.not_isDescendantOf_self _ _), ?_⟩
        intro a ha hdesc
        have hback : l.tree.isDescendantOf q.id a.id = true :=
          Tree.isDescendantOf_iff.2 ⟨a, ha, rfl⟩
        exact absurd (Tree.isDescendantOf_trans hback hdesc) (Tree.not_isDescendantOf_self _ _)
      · exact ⟨Or.inr hdesc, fun _ => hopen, hall⟩
    · rintro ⟨hid | hdesc, hopen, hall⟩
      · exact Or.inl (Tree.eq_of_id_eq hq he hid)
      · exact Or.inr ⟨hopen hdesc, hdesc, hall⟩

/-- The rows are the entries that only open folders enclose. -/
theorem mem_rows_iff {e : Entry α} (he : e ∈ l.tree.entries) :
    e ∈ l.rows ↔ e ≠ l.tree.root ∧
      ∀ a ∈ l.tree.ancestors e.id, a ≠ l.tree.root → l.expanded.contains a.id = true := by
  rw [rows_eq_below, mem_below_iff_ancestors Tree.root_mem he, Tree.isDescendantOf_root_iff he]
  apply and_congr_right
  intro _
  apply forall₂_congr
  intro a ha
  rw [Tree.isDescendantOf_root_iff (Tree.mem_entries_of_mem_ancestors ha)]

/-- The walk comes to its end, and what it has shown by then is the recursive flattening of the
root. No entry is shown twice, the root never, and any other entry when all that encloses it, short
of the root, is open. -/
theorem walk_flattens (l : Listing α) :
    l.Yields l.start (l.below l.tree.root.id) ∧
    l.rows = l.below l.tree.root.id ∧
    l.ids.Nodup ∧ l.tree.root.id ∉ l.ids ∧
    ∀ e, e ∈ l.rows ↔ e ∈ l.tree.entries ∧ e ≠ l.tree.root ∧
      ∀ a ∈ l.tree.ancestors e.id, a ≠ l.tree.root → l.expanded.contains a.id = true := by
  refine ⟨l.yields_start, l.rows_eq_below, l.nodup_ids, ?_, fun e => ⟨fun he => ?_, fun he => ?_⟩⟩
  · intro hid
    obtain ⟨e, he, heq⟩ := List.mem_map.1 hid
    rw [Tree.eq_of_id_eq (mem_entries_of_mem_rows he) Tree.root_mem heq] at he
    exact l.root_not_mem_rows he
  · exact ⟨mem_entries_of_mem_rows he, (mem_rows_iff (mem_entries_of_mem_rows he)).1 he⟩
  · exact (mem_rows_iff he.1).2 he.2

end Listing

end TreeBrowser
