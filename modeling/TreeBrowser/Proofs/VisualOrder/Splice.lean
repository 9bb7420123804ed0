import TreeBrowser.Proofs.Expansion
import TreeBrowser.Proofs.Tree.RoundTrip
import TreeBrowser.Proofs.VisualOrder

/-!
# Opening and closing a folder

A folder that is opened puts one block of rows into the listing, right after its own row: the
flattening of its children, with the folders below it open or closed as they were left. When the
folder is not shown itself, nothing is seen of its opening; and closing it undoes what opening it
has done.
-/

namespace TreeBrowser

variable {α : Type}

namespace Listing

variable {l : Listing α} {e q x : Entry α} {id : EntryId}

def opening (l : Listing α) (id : EntryId) : Listing α :=
  { l with expanded := l.expanded.expand l.tree id }

def closing (l : Listing α) (id : EntryId) : Listing α :=
  { l with expanded := l.expanded.collapse id }

/-- A row, with the rows that come after it when the folder `e` is opened. -/
def spliced (l : Listing α) (e x : Entry α) : List (Entry α) :=
  x :: if x.id = e.id then l.below e.id else []

/-! ## The block -/

theorem isOpen_opening_self (he : e ∈ l.tree.entries) (hnode : e.isNode = true) :
    (l.opening e.id).isOpen e = true := by
  rw [isOpen_iff hnode]
  exact Expansion.contains_expand.2 (Or.inr ⟨rfl, Tree.isNode_iff.2 ⟨e, he, rfl, hnode⟩⟩)

theorem isOpen_opening_of_ne (hne : x.id ≠ id) : (l.opening id).isOpen x = l.isOpen x := by
  have hcontains : (l.expanded.expand l.tree id).contains x.id = l.expanded.contains x.id := by
    rw [Bool.eq_iff_iff, Expansion.contains_expand]
    simp [hne]
  exact congrArg (x.isNode && ·) hcontains

theorem flatMap_spliced_of_not_mem {rows : List (Entry α)} (h : ∀ x ∈ rows, x.id ≠ e.id) :
    rows.flatMap (l.spliced e) = rows := by
  calc rows.flatMap (l.spliced e)
      = rows.flatMap (fun x => [x]) :=
        List.flatMap_congr fun x hx => by rw [spliced, if_neg (h x hx)]
    _ = rows := List.flatMap_singleton' rows

theorem ne_of_mem_below (he : e ∈ l.tree.entries) (hx : x ∈ l.below e.id) : x.id ≠ e.id := by
  intro hid
  have hdesc := (isDescendantOf_of_mem_below he hx).2
  rw [hid] at hdesc
  exact Tree.not_isDescendantOf_self _ _ hdesc

/-- When a folder is opened, the rows below any entry are as before, with the block put in after the
folder. -/
theorem below_opening (he : e ∈ l.tree.entries) (hnode : e.isNode = true)
    (hclosed : l.expanded.contains e.id = false) (hq : q ∈ l.tree.entries) :
    (l.opening e.id).below q.id = (l.below q.id).flatMap (l.spliced e) := by
  induction hq using Tree.children_induction with
  | step q hq ih =>
    have hopened : (l.opening e.id).below q.id =
        (l.sortedChildren q).flatMap (l.opening e.id).shown := below_eq hq
    rw [hopened, below_eq hq, List.flatMap_assoc]
    apply List.flatMap_congr
    intro c hc
    have hchild := mem_sortedChildren.1 hc
    have hmem := Tree.mem_of_mem_childrenOf hq hchild
    have hbelow := ih c hchild
    by_cases hid : c.id = e.id
    · -- the folder itself had no rows below it, and no folder occurs in its own block
      obtain rfl := Tree.eq_of_id_eq hmem he hid
      have hshut : ¬ l.isOpen c = true := by
        rw [isOpen_iff hnode, hclosed]
        exact Bool.false_ne_true
      rw [flatMap_spliced_of_not_mem fun x => ne_of_mem_below hmem] at hbelow
      rw [shown, shown, if_pos (isOpen_opening_self hmem hnode), if_neg hshut, hbelow,
        List.flatMap_singleton, spliced, if_pos rfl]
    · have hplain : l.spliced e c = [c] := by rw [spliced, if_neg hid]
      rw [shown, shown, isOpen_opening_of_ne hid, List.flatMap_cons, hplain, List.singleton_append]
      congr 1
      split
      · exact hbelow
      · rfl

theorem rows_opening (he : e ∈ l.tree.entries) (hnode : e.isNode = true)
    (hclosed : l.expanded.contains e.id = false) :
    (l.opening e.id).rows = l.rows.flatMap (l.spliced e) := by
  rw [rows_eq_below, rows_eq_below]
  exact below_opening he hnode hclosed Tree.root_mem

theorem mem_ids_iff (he : e ∈ l.tree.entries) : e.id ∈ l.ids ↔ e ∈ l.rows := by
  rw [ids, List.mem_map]
  constructor
  · rintro ⟨x, hx, hid⟩
    rwa [← Tree.eq_of_id_eq (mem_entries_of_mem_rows hx) he hid]
  · exact fun hrow => ⟨e, hrow, rfl⟩

theorem ids_opening_of_not_mem (he : e ∈ l.tree.entries) (hnode : e.isNode = true)
    (hclosed : l.expanded.contains e.id = false) (hrow : e.id ∉ l.ids) :
    (l.opening e.id).ids = l.ids := by
  have hne (x : Entry α) (hx : x ∈ l.rows) : x.id ≠ e.id :=
    fun hid => hrow (hid ▸ List.mem_map_of_mem hx)
  rw [ids, ids, rows_opening he hnode hclosed, flatMap_spliced_of_not_mem hne]

theorem exists_ids_opening (he : e ∈ l.tree.entries) (hnode : e.isNode = true)
    (hclosed : l.expanded.contains e.id = false) (hrow : e.id ∈ l.ids) :
    ∃ before after, l.ids = before ++ e.id :: after ∧
      (l.opening e.id).ids = before ++ e.id :: ((l.below e.id).map Entry.id ++ after) := by
  obtain ⟨before, after, hrows⟩ := List.append_of_mem ((mem_ids_iff he).1 hrow)
  have hids : l.ids = before.map Entry.id ++ e.id :: after.map Entry.id := by
    rw [ids, hrows, List.map_append, List.map_cons]
  have hnodup := l.nodup_ids
  rw [hids, List.nodup_middle, List.nodup_cons, List.mem_append, not_or] at hnodup
  have hbefore (x : Entry α) (hx : x ∈ before) : x.id ≠ e.id :=
    fun hid => hnodup.1.1 (hid ▸ List.mem_map_of_mem hx)
  have hafter (x : Entry α) (hx : x ∈ after) : x.id ≠ e.id :=
    fun hid => hnodup.1.2 (hid ▸ List.mem_map_of_mem hx)
  refine ⟨before.map Entry.id, after.map Entry.id, hids, ?_⟩
  rw [ids, rows_opening he hnode hclosed, hrows, List.flatMap_append, List.flatMap_cons,
    flatMap_spliced_of_not_mem hbefore, flatMap_spliced_of_not_mem hafter, spliced, if_pos rfl]
  simp

theorem closing_opening (hclosed : l.expanded.contains id = false) :
    (l.opening id).closing id = l := by
  rw [closing, opening, Expansion.collapse_expand hclosed]

/-- Opening a closed folder that is shown puts one block of rows right after it, and opening one that
is not shown, or the root, changes no row. The block is the flattening of the children of the folder:
the entries below it from which only open folders lead up to it. Closing the folder again gives the
listing back as it was, with the same folders open below. -/
theorem opening_splices_block (he : e ∈ l.tree.entries) (hnode : e.isNode = true)
    (hclosed : l.expanded.contains e.id = false) :
    let opened := l.opening e.id
    let block := l.below e.id
    (e.id ∈ l.ids → ∃ before after, l.ids = before ++ e.id :: after ∧
      opened.ids = before ++ e.id :: (block.map Entry.id ++ after)) ∧
    (e = l.tree.root ∨ e.id ∉ l.ids → opened.ids = l.ids) ∧
    block = (l.sortedChildren e).flatMap l.shown ∧ opened.below e.id = block ∧
    (∀ x, x ∈ block ↔ x ∈ l.tree.entries ∧ l.tree.isDescendantOf x.id e.id = true ∧
      ∀ a ∈ l.tree.ancestors x.id, l.tree.isDescendantOf a.id e.id = true →
        l.expanded.contains a.id = true) ∧
    opened.closing e.id = l := by
  intro opened block
  refine ⟨exists_ids_opening he hnode hclosed, ?_, below_eq he, ?_, fun x => ?_,
    closing_opening hclosed⟩
  · intro hunseen
    have hrow : e.id ∉ l.ids := by
      rcases hunseen with rfl | hrow
      · rw [mem_ids_iff he]
        exact l.root_not_mem_rows
      · exact hrow
    exact ids_opening_of_not_mem he hnode hclosed hrow
  · rw [below_opening he hnode hclosed he]
    exact flatMap_spliced_of_not_mem fun x => ne_of_mem_below he
  · constructor
    · intro hx
      have hmem := (isDescendantOf_of_mem_below he hx).1
      exact ⟨hmem, (mem_below_iff_ancestors he hmem).1 hx⟩
    · rintro ⟨hmem, hx⟩
      exact (mem_below_iff_ancestors he hmem).2 hx

def innerOpen : Listing Unit :=
  ⟨Tree.threeDeepTree, ⟨"", false, []⟩, .ofIds ["b"]⟩

theorem opening_splices_block_nested :
    let outer : Entry Unit := ⟨"a", "A", (), some "root", .node ["b"]⟩
    outer ∈ innerOpen.tree.entries ∧ outer.isNode = true ∧
      innerOpen.expanded.contains "a" = false ∧ innerOpen.ids = ["a", "c"] ∧
      (∃ before after, innerOpen.ids = before ++ "a" :: after ∧
        (innerOpen.opening "a").ids = before ++ "a" :: "b" :: "x" :: after) ∧
      (innerOpen.opening "a").closing "a" = innerOpen := by
  intro outer
  have hmem : outer ∈ innerOpen.tree.entries := List.mem_cons_of_mem _ List.mem_cons_self
  have hids : innerOpen.ids = ["a", "c"] := by decide +kernel
  have hblock : (innerOpen.below "a").map Entry.id = ["b", "x"] := by decide +kernel
  obtain ⟨hsplice, -, -, -, -, hclosing⟩ := opening_splices_block hmem rfl rfl
  refine ⟨hmem, rfl, rfl, hids, ?_, hclosing⟩
  obtain ⟨before, after, hbefore, hopened⟩ := hsplice (by rw [hids]; exact List.mem_cons_self)
  refine ⟨before, after, hbefore, ?_⟩
  rw [hblock] at hopened
  exact hopened

end Listing

end TreeBrowser
