import TreeBrowser.Proofs.VisualOrder

/-!
# Blocks of rows

A row and the rows below it stand together. So between a folder and a row below it there are only
rows below the folder, and the row after another one lies deeper only as its first child.
-/

namespace TreeBrowser

variable {α : Type}

namespace Listing

variable {l : Listing α} {e q x y : Entry α} {i : Nat}

theorem exists_block (he : e ∈ l.tree.entries) (hx : x ∈ l.below e.id) :
    ∃ before after, l.below e.id = before ++ l.shown x ++ after := by
  induction he using Tree.children_induction with
  | step e he ih =>
    obtain ⟨c, hc, hxc⟩ := (mem_below_iff he).1 hx
    obtain ⟨front, back, hsorted⟩ := List.append_of_mem (mem_sortedChildren.2 hc)
    have hbelow : l.below e.id =
        front.flatMap l.shown ++ l.shown c ++ back.flatMap l.shown := by
      rw [below_eq he, hsorted, List.flatMap_append, List.flatMap_cons, List.append_assoc]
    rcases hxc with rfl | ⟨hopen, hxc⟩
    · exact ⟨_, _, hbelow⟩
    · obtain ⟨before, after, hblock⟩ := ih c hc hxc
      refine ⟨front.flatMap l.shown ++ c :: before, after ++ back.flatMap l.shown, ?_⟩
      rw [hbelow]
      conv_lhs => rw [shown, if_pos hopen, hblock]
      simp only [List.cons_append, List.append_assoc]

theorem nodup_rows (l : Listing α) : l.rows.Nodup :=
  l.nodup_ids.of_map _

theorem eq_of_getElem?_rows {j : Nat} (hi : l.rows[i]? = some x) (hj : l.rows[j]? = some x) :
    i = j :=
  (List.getElem?_inj (List.getElem?_eq_some_iff.1 hi).1 l.nodup_rows).1 (hi.trans hj.symm)

theorem exists_folder_of_mem_rows (hx : x ∈ l.rows) :
    ∃ q ∈ l.tree.entries, x ∈ l.tree.childrenOf q := by
  apply Tree.exists_folder (mem_entries_of_mem_rows hx)
  rintro rfl
  exact l.root_not_mem_rows hx

theorem depth_pos (hx : x ∈ l.rows) : 0 < l.tree.depth x.id := by
  rw [Nat.pos_iff_ne_zero, ne_eq, Tree.depth_eq_zero_iff (mem_entries_of_mem_rows hx)]
  rintro rfl
  exact l.root_not_mem_rows hx

theorem rows_eq_block (hi : l.rows[i]? = some x) :
    ∃ before after, l.rows = before ++ l.shown x ++ after ∧ before.length = i := by
  have hx := List.mem_of_getElem? hi
  rw [rows_eq_below] at hx
  obtain ⟨before, after, hblock⟩ := exists_block Tree.root_mem hx
  rw [← rows_eq_below] at hblock
  refine ⟨before, after, hblock, ?_⟩
  have hhere : l.rows[before.length]? = some x := by
    rw [hblock, List.append_assoc, List.getElem?_append_right (Nat.le_refl _), Nat.sub_self]
    rfl
  exact eq_of_getElem?_rows hhere hi

/-- The folder of a row, if it is not the root, is an open row before it, and the rows after the
folder up to this one are below the folder. -/
theorem exists_folder_row (hq : q ∈ l.tree.entries) (hx : x ∈ l.tree.childrenOf q)
    (hroot : q ≠ l.tree.root) (hi : l.rows[i]? = some x) :
    ∃ j < i, l.rows[j]? = some q ∧ l.isOpen q = true ∧
      ∀ m y, j < m → m ≤ i → l.rows[m]? = some y → l.tree.isDescendantOf y.id q.id = true := by
  have hmem := List.mem_of_getElem? hi
  rw [rows_eq_below, mem_below_iff_parent Tree.root_mem hq hx] at hmem
  obtain ⟨hopen, hrow⟩ := hmem.resolve_left hroot
  rw [← rows_eq_below] at hrow
  obtain ⟨j, hj⟩ := List.getElem?_of_mem hrow
  obtain ⟨before, after, hrows, rfl⟩ := rows_eq_block hj
  rw [shown, if_pos hopen, List.append_assoc, List.cons_append] at hrows
  -- The rows after the folder are those below it, and then the others.
  have hafter (m : Nat) (hm : before.length < m) :
      l.rows[m]? = (l.below q.id ++ after)[m - (before.length + 1)]? := by
    have hsplit : m - before.length = m - (before.length + 1) + 1 := by omega
    rw [hrows, List.getElem?_append_right (Nat.le_of_lt hm), hsplit, List.getElem?_cons_succ]
  obtain ⟨k, hk⟩ := List.getElem?_of_mem ((mem_below_iff hq).2 ⟨x, hx, Or.inl rfl⟩)
  have hklt := (List.getElem?_eq_some_iff.1 hk).1
  have hrow : l.rows[before.length + 1 + k]? = some x := by
    rw [hafter _ (by omega), Nat.add_sub_cancel_left, List.getElem?_append_left hklt, hk]
  obtain rfl := eq_of_getElem?_rows hrow hi
  refine ⟨before.length, by omega, hj, hopen, fun m y hlt hle hy => ?_⟩
  rw [hafter m hlt, List.getElem?_append_left (by omega)] at hy
  exact (isDescendantOf_of_mem_below hq (List.mem_of_getElem? hy)).2

/-- The next row lies deeper exactly when this one is an open folder that is not empty. -/
theorem next_deeper_iff (hi : l.rows[i]? = some x) :
    (∃ y, l.rows[i + 1]? = some y ∧ l.tree.depth x.id < l.tree.depth y.id) ↔
      l.isOpen x = true ∧ x.children ≠ [] := by
  have hrow := List.mem_of_getElem? hi
  have hx := mem_entries_of_mem_rows hrow
  constructor
  · rintro ⟨y, hy, hdepth⟩
    obtain ⟨q, hq, hchild⟩ := exists_folder_of_mem_rows (List.mem_of_getElem? hy)
    have hdepthy := Tree.depth_child hq hchild
    by_cases hroot : q = l.tree.root
    · -- Only the root is less deep than its children.
      have hpos := depth_pos hrow
      rw [hroot, Tree.depth_root] at hdepthy
      omega
    · obtain ⟨j, hj, hjq, hopen, hbelow⟩ := exists_folder_row hq hchild hroot hy
      have heq : j = i := by
        by_contra hne
        have hdesc := hbelow i x (by omega) (by omega) hi
        have hlt := Tree.depth_lt_of_isDescendantOf hdesc
        omega
      rw [heq, hi] at hjq
      cases hjq
      refine ⟨hopen, fun hchildren => ?_⟩
      have hids := Tree.map_id_childrenOf hq
      rw [hchildren, List.map_eq_nil_iff] at hids
      rw [hids] at hchild
      cases hchild
  · rintro ⟨hopen, hchildren⟩
    obtain ⟨before, after, hrows, rfl⟩ := rows_eq_block hi
    have hsorted : l.sortedChildren x ≠ [] := by
      intro hnil
      have hperm := (l.sortedChildren_perm x).map Entry.id
      rw [hnil, Tree.map_id_childrenOf hx] at hperm
      exact hchildren hperm.symm.eq_nil
    obtain ⟨c, others, hc⟩ := List.exists_cons_of_ne_nil hsorted
    have hchild : c ∈ l.tree.childrenOf x := mem_sortedChildren.1 (hc ▸ List.mem_cons_self)
    refine ⟨c, ?_, ?_⟩
    · rw [hrows, List.append_assoc, List.getElem?_append_right (by omega), Nat.add_sub_cancel_left,
        shown, if_pos hopen, below_eq hx, hc]
      rfl
    · rw [Tree.depth_child hx hchild]
      omega

end Listing

end TreeBrowser
