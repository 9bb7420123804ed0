import TreeBrowser.Proofs.Tree.Fork
import TreeBrowser.Proofs.Tree.RoundTrip
import TreeBrowser.Proofs.VisualOrder

/-!
# Which of two rows comes first

A folder comes before what is below it. The ways to any other two rows part at a folder, and the
rows come in the order of the two children in which they lie. So a listing is known, row against
row, from the order of siblings: turning the direction round turns the branches round at every
folder, and leaves each folder before its contents.
-/

namespace TreeBrowser

variable {α : Type}

namespace Listing

variable {l : Listing α} {x y : Entry α}

/-- The entry `x` comes first: it encloses `y`, or the ways to them part at a folder and the child
on the way to `x` is sorted before the one on the way to `y`. -/
def Leads (l : Listing α) (x y : Entry α) : Prop :=
  l.tree.isDescendantOf y.id x.id = true ∨
    ∃ p c d, l.tree.Forks p c d x y ∧ Precedes (l.sortedChildren p) c d

theorem Leads.asymm (h : l.Leads x y) : ¬ l.Leads y x := by
  intro hback
  rcases h with hdesc | ⟨p, c, d, hfork, hbefore⟩
  · rcases hback with hdesc' | ⟨p, c, d, hfork, -⟩
    · exact Tree.not_isDescendantOf_self _ _ (Tree.isDescendantOf_trans hdesc' hdesc)
    · exact hfork.symm.not_isDescendantOf hdesc
  · rcases hback with hdesc | ⟨p', d', c', hfork', hbefore'⟩
    · exact hfork.symm.not_isDescendantOf hdesc
    · obtain ⟨rfl, rfl, rfl⟩ := hfork.unique hfork'.symm
      exact hbefore.asymm (nodup_sortedChildren hfork.folder) hbefore'

theorem leads_of_mem_shown {p c d : Entry α} (hp : p ∈ l.tree.entries)
    (hbefore : Precedes (l.sortedChildren p) c d) (hx : x ∈ l.shown c) (hy : y ∈ l.shown d) :
    l.Leads x y := by
  have hc := mem_sortedChildren.1 hbefore.mem_left
  have hd := mem_sortedChildren.1 hbefore.mem_right
  obtain ⟨hxmem, hxc⟩ := of_mem_shown (Tree.mem_of_mem_childrenOf hp hc) hx
  obtain ⟨hymem, hyd⟩ := of_mem_shown (Tree.mem_of_mem_childrenOf hp hd) hy
  have hne : c ≠ d := hbefore.ne (nodup_sortedChildren hp)
  exact Or.inr ⟨p, c, d, ⟨hp, hc, hd, hne, hxmem, hymem, hxc, hyd⟩, hbefore⟩

/-- The rows below an entry follow one another as `Leads` says. -/
theorem pairwise_leads_below {e : Entry α} (he : e ∈ l.tree.entries) :
    (l.below e.id).Pairwise l.Leads := by
  induction he using Tree.children_induction with
  | step e he ih =>
    -- A child leads what is shown below it, and of two children the one that is sorted first leads.
    rw [below_eq he, List.pairwise_flatMap]
    constructor
    · intro c hc
      have hchild := mem_sortedChildren.1 hc
      have hmem := Tree.mem_of_mem_childrenOf he hchild
      rw [shown]
      split
      · refine List.pairwise_cons.2 ⟨fun x hx => ?_, ih c hchild⟩
        exact Or.inl (isDescendantOf_of_mem_below hmem hx).2
      · exact List.pairwise_singleton _ c
    · refine List.pairwise_iff_forall_sublist.2 ?_
      intro c d hbefore x hx y hy
      exact leads_of_mem_shown he hbefore hx hy

theorem precedes_rows_iff (hx : x ∈ l.rows) (hy : y ∈ l.rows) :
    Precedes l.rows x y ↔ l.Leads x y := by
  have hpairwise : l.rows.Pairwise l.Leads := by
    rw [rows_eq_below]
    exact pairwise_leads_below Tree.root_mem
  constructor
  · exact fun h => List.pairwise_iff_forall_sublist.1 hpairwise h
  · intro h
    have hne : x ≠ y := by
      rintro rfl
      exact h.asymm h
    refine (Precedes.total hx hy hne).resolve_right fun hback => ?_
    exact h.asymm (List.pairwise_iff_forall_sublist.1 hpairwise hback)

/-- Two siblings come in the order in which their folder sorts them. -/
theorem precedes_sortedChildren_of_precedes_rows {p : Entry α} (hp : p ∈ l.tree.entries)
    (hx : x ∈ l.tree.childrenOf p) (hy : y ∈ l.tree.childrenOf p) (h : Precedes l.rows x y) :
    Precedes (l.sortedChildren p) x y := by
  have hmem := mem_entries_of_mem_rows h.mem_left
  have hleads := (precedes_rows_iff h.mem_left h.mem_right).1 h
  have hne : x ≠ y := by
    rintro rfl
    exact hleads.asymm hleads
  have hfork : l.tree.Forks p x y x y :=
    ⟨hp, hx, hy, hne, hmem, mem_entries_of_mem_rows h.mem_right, Or.inl rfl, Or.inl rfl⟩
  rcases hleads with hdesc | ⟨p', c, d, hfork', hbefore⟩
  · exact absurd hdesc hfork.not_isDescendantOf
  · obtain ⟨rfl, rfl, rfl⟩ := hfork.unique hfork'
    exact hbefore

/-! ## The other direction -/

def turned (l : Listing α) : Listing α :=
  { l with columns := l.columns.turned }

theorem sortedChildren_turned (e : Entry α) :
    l.turned.sortedChildren e = (l.sortedChildren e).reverse :=
  Columns.sort_turned l.columns (l.tree.childrenOf e)

theorem mem_rows_turned : x ∈ l.turned.rows ↔ x ∈ l.rows := by
  have hrow (hmem : x ∈ l.tree.entries) : x ∈ l.turned.rows ↔ x ∈ l.rows :=
    (mem_rows_iff (l := l.turned) hmem).trans (mem_rows_iff (l := l) hmem).symm
  constructor
  · exact fun hx => (hrow (mem_entries_of_mem_rows (l := l.turned) hx)).1 hx
  · exact fun hx => (hrow (mem_entries_of_mem_rows hx)).2 hx

theorem leads_turned_iff (hxy : l.tree.isDescendantOf y.id x.id = false)
    (hyx : l.tree.isDescendantOf x.id y.id = false) : l.turned.Leads x y ↔ l.Leads y x := by
  constructor
  · rintro (hdesc | ⟨p, c, d, hfork, hbefore⟩)
    · exact absurd (hdesc.symm.trans hxy) (by simp)
    · rw [sortedChildren_turned, Precedes.reverse_iff] at hbefore
      exact Or.inr ⟨p, d, c, hfork.symm, hbefore⟩
  · rintro (hdesc | ⟨p, d, c, hfork, hbefore⟩)
    · exact absurd (hdesc.symm.trans hyx) (by simp)
    · refine Or.inr ⟨p, c, d, hfork.symm, ?_⟩
      rw [sortedChildren_turned, Precedes.reverse_iff]
      exact hbefore

/-- Listings in the two directions have the same rows. A folder comes before what is below it in
both, and two rows neither of which is below the other come in one order here and in the opposite
one there. -/
theorem turned_reverses_branches (l : Listing α) :
    l.turned.rows.Perm l.rows ∧
    ∀ x ∈ l.rows, ∀ y ∈ l.rows,
      (l.tree.isDescendantOf y.id x.id = true →
        Precedes l.rows x y ∧ Precedes l.turned.rows x y) ∧
      (l.tree.isDescendantOf y.id x.id = false → l.tree.isDescendantOf x.id y.id = false →
        (Precedes l.turned.rows x y ↔ Precedes l.rows y x)) := by
  have hnodup (l : Listing α) : l.rows.Nodup := l.nodup_ids.of_map _
  refine ⟨(List.perm_ext_iff_of_nodup (hnodup _) (hnodup _)).2 fun _ => mem_rows_turned, ?_⟩
  intro x hx y hy
  have hx' := mem_rows_turned.2 hx
  have hy' := mem_rows_turned.2 hy
  constructor
  · intro hdesc
    exact ⟨(precedes_rows_iff hx hy).2 (Or.inl hdesc), (precedes_rows_iff hx' hy').2 (Or.inl hdesc)⟩
  · intro hxy hyx
    rw [precedes_rows_iff hx' hy', precedes_rows_iff hy hx]
    exact leads_turned_iff hxy hyx

def allOpen : Listing Unit :=
  ⟨Tree.threeDeepTree, ⟨"", false, []⟩, .ofIds ["a", "b"]⟩

theorem turned_reverses_branches_nested :
    let outer : Entry Unit := ⟨"a", "A", (), some "root", .node ["b"]⟩
    let inner : Entry Unit := ⟨"b", "B", (), some "a", .node ["x"]⟩
    let deepest : Entry Unit := ⟨"x", "X", (), some "b", .leaf true⟩
    let beside : Entry Unit := ⟨"c", "C", (), some "root", .leaf false⟩
    allOpen.rows = [outer, inner, deepest, beside] ∧
      allOpen.tree.isDescendantOf "x" "a" = true ∧
      allOpen.tree.isDescendantOf "x" "c" = false ∧ allOpen.tree.isDescendantOf "c" "x" = false ∧
      Precedes allOpen.turned.rows outer deepest ∧ Precedes allOpen.turned.rows beside deepest := by
  intro outer inner deepest beside
  have hrows : allOpen.rows = [outer, inner, deepest, beside] := rfl
  have houter : outer ∈ allOpen.rows := by simp [hrows]
  have hdeepest : deepest ∈ allOpen.rows := by simp [hrows]
  have hbeside : beside ∈ allOpen.rows := by simp [hrows]
  have hbefore : Precedes allOpen.rows deepest beside := by
    rw [hrows]
    exact (List.Sublist.refl [deepest, beside]).cons inner |>.cons outer
  obtain ⟨-, hcompare⟩ := turned_reverses_branches allOpen
  refine ⟨hrows, rfl, rfl, rfl, ?_, ?_⟩
  · exact ((hcompare outer houter deepest hdeepest).1 rfl).2
  · exact ((hcompare beside hbeside deepest hdeepest).2 rfl rfl).2 hbefore

end Listing

end TreeBrowser
