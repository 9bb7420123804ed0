import TreeBrowser.Proofs.Browser.Step
import TreeBrowser.Proofs.VisualOrder.Precedence
import TreeBrowser.Proofs.Workspace.Columns
import TreeBrowser.Proofs.Workspace.Samples

/-!
# Siblings stay sorted

The columns of a browser are those of the workspace for good, and one of them is always active. As
each of them orders its entries totally, the siblings that a browser shows stand in the order of the
active column, whatever has been done to the browser.
-/

namespace TreeBrowser.Browser

variable {b : Browser}

theorem Reachable.list_columns (h : b.Reachable) :
    b.columns.list = Workspace.columnsBy Text.lowerCase := by
  induction h with
  | start workspace settings => rfl
  | @step b action _ ih => exact (b.moves_dispatch action).list_columns.trans ih

/-- In every reachable state a column is active, and siblings that are shown stand as its order says.
Those that it does not tell apart stand in the order of the server, or in the opposite order when
the listing is descending. -/
theorem visible_siblings_sorted (hb : b.Reachable) :
    ∃ column ∈ b.columns.list, b.columns.active? = some column ∧
      ∀ p ∈ b.tree.entries, ∀ x ∈ b.tree.childrenOf p, ∀ y ∈ b.tree.childrenOf p,
        Precedes b.listing.rows x y →
          b.columns.Agrees column (b.tree.childrenOf p) x y := by
  obtain ⟨column, hcolumn, hactive⟩ := Columns.exists_active? hb.sound.columns
  refine ⟨column, hcolumn, hactive, fun p hp x hx y hy hrows => ?_⟩
  rw [hb.list_columns] at hcolumn
  have horder := Workspace.transCmp_of_mem_columnsBy Text.lowerCase hcolumn
  have hnodup : (b.tree.childrenOf p).Nodup := (Tree.childrenOf_nodup hp).of_map _
  have hsorted : Precedes (b.columns.sort (b.tree.childrenOf p)) x y :=
    Listing.precedes_sortedChildren_of_precedes_rows (l := b.listing) hp hx hy hrows
  exact Columns.agrees_of_precedes_sort hactive hnodup hsorted

/-- The listing is turned round by two clicks on a header, with a name in between that no column has.
The column does not tell the entries apart. -/
theorem siblings_sorted_by_adder :
    let b := (start (workspaceOf twoFoldersTree) {}).run
      [.sortBy "Added By", .sortBy "Size", .sortBy "Added By"]
    b.Reachable ∧ b.columns.sortColumn = "Added By" ∧ b.columns.descending = true ∧
      b.rowIds = ["c", "b", "a"] ∧
      ∃ column, b.columns.active? = some column ∧
        ∀ x ∈ b.tree.childrenOf b.tree.root, ∀ y ∈ b.tree.childrenOf b.tree.root,
          Precedes b.listing.rows x y → column.order x y ≠ .lt ∧
            (column.order x y = .eq → Precedes (b.tree.childrenOf b.tree.root) y x) := by
  intro b
  have hreachable : b.Reachable := (Reachable.start _ _).run _
  have hname : b.columns.sortColumn = "Added By" := by decide +kernel
  have hdescending : b.columns.descending = true := by decide +kernel
  have hrows : b.rowIds = ["c", "b", "a"] := by
    rw [rowIds, ← Listing.ids_unsorted (by decide +kernel)]
    decide +kernel
  obtain ⟨column, -, hactive, hsorted⟩ := visible_siblings_sorted hreachable
  refine ⟨hreachable, hname, hdescending, hrows, column, hactive, fun x hx y hy hbefore => ?_⟩
  have hagrees := hsorted _ Tree.root_mem x hx y hy hbefore
  rwa [Columns.Agrees, if_pos hdescending] at hagrees

end TreeBrowser.Browser
