import TreeBrowser.Outline
import TreeBrowser.Proofs.Browser.Change

/-!
# What looks alike is outlined alike

The rows of a listing depend on the open folders only through the question whether a folder is open,
and an outline reads nothing of a browser that a step can change unseen. So an action that reports
no change leaves the outline as it was.
-/

namespace TreeBrowser

namespace Listing

variable {α : Type} {t : Tree α} {c : Columns α} {x y : Expansion}

theorem isOpen_congr (h : x.Same y) (e : Entry α) :
    isOpen ⟨t, c, x⟩ e = isOpen ⟨t, c, y⟩ e :=
  congrArg (e.isNode && ·) (Bool.eq_iff_iff.2 (h e.id))

theorem next?_congr (h : x.Same y) (levels : List (List (Entry α))) :
    next? ⟨t, c, x⟩ levels = next? ⟨t, c, y⟩ levels := by
  induction levels with
  | nil => rfl
  | cons siblings outer ih =>
    cases siblings with
    | nil => exact ih
    | cons e rest =>
      rw [next?, next?, isOpen_congr h]
      rfl

theorem walk_congr (h : x.Same y) (n : Nat) (levels : List (List (Entry α))) :
    walk ⟨t, c, x⟩ n levels = walk ⟨t, c, y⟩ n levels := by
  induction n generalizing levels with
  | zero => rfl
  | succ n ih => simp only [walk, next?_congr h, ih]

theorem rows_congr (h : x.Same y) : rows ⟨t, c, x⟩ = rows ⟨t, c, y⟩ :=
  walk_congr h _ _

end Listing

namespace Browser

variable {b b' : Browser}

theorem columns_eq_of_looksLike (h : b'.LooksLike b) (hframe : b'.SameFrame b) :
    b'.columns = b.columns := by
  cases hcolumns : b.columns
  cases hcolumns' : b'.columns
  have hsort := h.sortColumn
  have hdescending := h.descending
  have hlist := hframe.columns
  rw [hcolumns, hcolumns'] at hsort hdescending hlist
  cases hsort
  cases hdescending
  cases hlist
  rfl

theorem outline_eq_of_looksLike (h : b'.LooksLike b) (hframe : b'.SameFrame b) :
    b'.outline = b.outline := by
  have htree : b'.tree = b.tree := congrArg Workspace.tree hframe.workspace
  have hrows : b'.listing.rows = b.listing.rows := by
    rw [listing, listing, htree, columns_eq_of_looksLike h hframe]
    exact Listing.rows_congr h.expanded
  have hrow : b'.outlineRow = b.outlineRow := by
    funext e
    rw [outlineRow, outlineRow, htree, Selection.isFocused, Selection.isFocused,
      Selection.isSelected, Selection.isSelected, h.focused, h.selected,
      Bool.eq_iff_iff.2 (h.expanded e.id)]
  rw [outline, outline, hrows, hrow]

theorem outline_dispatch {action : Action}
    (haction : ∀ workspace, action ≠ .replaceWorkspace workspace)
    (h : (b.dispatch action).2.changed = false) :
    (b.dispatch action).1.outline = b.outline := by
  have hmoves := b.moves_dispatch action
  apply outline_eq_of_looksLike _ (hmoves.sameFrame haction)
  by_contra hlooks
  rw [(hmoves.changed_iff haction).2 hlooks] at h
  cases h

end Browser

end TreeBrowser
