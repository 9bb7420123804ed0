import TreeBrowser.Proofs.Tree.Shuffle
import TreeBrowser.Proofs.VisualOrder
import TreeBrowser.Proofs.Workspace.Columns

/-!
# Rows without ties

The order in which the children of folders are sent decides only between siblings that the active
column takes for equal. Where there are no such siblings, it does not show in the rows.
-/

namespace TreeBrowser

variable {α : Type} {column : Column α} {t' : Tree α}

/-- Lists that look the same flatten to the same when what a member becomes depends only on its
looks. -/
theorem flatMap_eq_of_map_eq {β γ δ : Type} {l l' : List β} {view : β → γ} {f f' : β → List δ}
    (h : l.map view = l'.map view) (hf : ∀ x ∈ l, ∀ x' ∈ l', view x = view x' → f x = f' x') :
    l.flatMap f = l'.flatMap f' := by
  induction l generalizing l' with
  | nil =>
    rw [List.map_nil, eq_comm, List.map_eq_nil_iff] at h
    rw [h, List.flatMap_nil, List.flatMap_nil]
  | cons x l ih =>
    cases l' with
    | nil => cases h
    | cons x' l' =>
      obtain ⟨hx, hl⟩ := List.cons.inj h
      rw [List.flatMap_cons, List.flatMap_cons,
        hf x List.mem_cons_self x' List.mem_cons_self hx, ih hl fun y hy y' hy' =>
          hf y (List.mem_cons_of_mem x hy) y' (List.mem_cons_of_mem x' hy')]

def Tree.Tieless (t : Tree α) (order : Entry α → Entry α → Ordering) : Prop :=
  ∀ p ∈ t.entries, ∀ x ∈ t.childrenOf p, ∀ y ∈ t.childrenOf p, order x y = .eq → x = y

namespace Listing

variable {l : Listing α}

def onTree (l : Listing α) (t : Tree α) : Listing α :=
  { l with tree := t }

theorem isOpen_bare (l : Listing α) (e : Entry α) : l.isOpen e.bare = l.isOpen e := by
  rw [isOpen, isOpen, Entry.bare_isNode, Entry.bare_id]

theorem isOpen_onTree (l : Listing α) (t : Tree α) (e : Entry α) :
    (l.onTree t).isOpen e = l.isOpen e :=
  rfl

/-- The listing is sorted by `column`, which does not look at the children of entries, and no two
siblings are equal under it. -/
structure SortsWithoutTies (l : Listing α) (column : Column α) : Prop where
  active : l.columns.active? = some column
  order_bare : ∀ a b, column.order a.bare b.bare = column.order a b
  tieless : l.tree.Tieless column.order

theorem map_bare_sortedChildren [Std.TransCmp column.order] (hl : l.SortsWithoutTies column)
    (htrees : l.tree.Shuffled t') {e e' : Entry α} (he : e ∈ l.tree.entries)
    (he' : e' ∈ t'.entries) (hid : e.id = e'.id) :
    (l.sortedChildren e).map Entry.bare = ((l.onTree t').sortedChildren e').map Entry.bare :=
  l.columns.sort_map_eq hl.active hl.order_bare (htrees.children e he e' he' hid) (hl.tieless e he)

/-- Below an entry, listings of shuffled trees show the same, the lists of children apart. -/
theorem map_bare_below [Std.TransCmp column.order] (hl : l.SortsWithoutTies column)
    (htrees : l.tree.Shuffled t') {e e' : Entry α} (he : e ∈ l.tree.entries)
    (he' : e' ∈ t'.entries) (hid : e.id = e'.id) :
    (l.below e.id).map Entry.bare = ((l.onTree t').below e'.id).map Entry.bare := by
  induction he using Tree.children_induction generalizing e' with
  | step e he ih =>
    rw [below_eq he, below_eq (l := l.onTree t') he', List.map_flatMap, List.map_flatMap]
    apply flatMap_eq_of_map_eq (map_bare_sortedChildren hl htrees he he' hid)
    intro c hc c' hc' hbare
    have hchild := mem_sortedChildren.1 hc
    have hmem' := Tree.mem_of_mem_childrenOf he' (mem_sortedChildren.1 hc')
    have hcid : c.id = c'.id := by rw [← Entry.bare_id c, hbare, Entry.bare_id]
    have hopen : l.isOpen c = (l.onTree t').isOpen c' := by
      rw [isOpen_onTree, ← isOpen_bare l c, hbare, isOpen_bare]
    rw [shown, shown, List.map_cons, List.map_cons, hbare, hopen]
    split
    · rw [ih c hchild hmem' hcid]
    · rfl

/-- Without ties, listings of shuffled trees show the same ids. -/
theorem ids_onTree [Std.TransCmp column.order] (hl : l.SortsWithoutTies column)
    (htrees : l.tree.Shuffled t') : (l.onTree t').ids = l.ids := by
  have hrows := map_bare_below hl htrees Tree.root_mem Tree.root_mem htrees.root
  have hids := congrArg (List.map Entry.id) hrows
  simp only [List.map_map, Function.comp_def, Entry.bare_id] at hids
  rw [ids, ids, rows_eq_below, rows_eq_below]
  exact hids.symm

end Listing

namespace Workspace

variable (lower : Char → List Char)

theorem fileDataOf?_bare (e : Entry WorkspaceEntry) : fileDataOf? e.bare = fileDataOf? e := by
  rw [fileDataOf?, fileDataOf?, Entry.isLeaf, Entry.isLeaf, Entry.bare_isNode, Entry.bare_data]

/-- No column looks at the children of an entry. -/
theorem order_bare {column : Column WorkspaceEntry} (h : column ∈ columnsBy lower)
    (a b : Entry WorkspaceEntry) : column.order a.bare b.bare = column.order a b := by
  simp only [columnsBy, List.mem_cons, List.not_mem_nil, or_false] at h
  rcases h with rfl | rfl | rfl | rfl | rfl
  · simp only [orderByName, Entry.bare_isNode, Entry.bare_name]
  · simp only [orderByAddedBy, Entry.bare_data]
  · simp only [orderByAddedOn, addedOnKey, Entry.bare_data]
  · simp only [orderByFileType, mimeTypeKey, fileDataOf?_bare]
  · simp only [orderByStage, stageKey, fileDataOf?_bare]

theorem tieless_orderByName_iff {t : Tree WorkspaceEntry} :
    t.Tieless (orderByName lower) ↔ ∀ p ∈ t.entries, ∀ x ∈ t.childrenOf p, ∀ y ∈ t.childrenOf p,
      x.isNode = y.isNode → x.name = y.name → x = y := by
  simp only [Tree.Tieless, (sortsByKey_orderByName lower).eq_iff, and_imp]

/-- Of two snapshots that differ in the order of children alone, if one is a tree then so is the
other. The ids that a listing shows are the same for both, in either direction and whatever is
open, when the active column takes no two siblings for equal. By name, that is when no two siblings
have the same kind and the same name. -/
theorem rows_ignore_sent_order {s s' : Snapshot WorkspaceEntry} (hshuffled : s.Shuffled s')
    {t : Tree WorkspaceEntry} (ht : Tree.ofSnapshot s = .ok t) :
    ∃ t', Tree.ofSnapshot s' = .ok t' ∧
      (∀ columns column, column ∈ columnsBy lower → columns.active? = some column →
        t.Tieless column.order → ∀ expanded,
          (Listing.mk t columns expanded).ids = (Listing.mk t' columns expanded).ids) ∧
      (t.Tieless (orderByName lower) ↔
        ∀ p ∈ t.entries, ∀ x ∈ t.childrenOf p, ∀ y ∈ t.childrenOf p,
          x.isNode = y.isNode → x.name = y.name → x = y) := by
  obtain ⟨t', ht'⟩ := hshuffled.exists_tree ht
  have htrees : t.Shuffled t' := Tree.shuffled_of_snapshots (Tree.ofSnapshot_eq_ok_iff.1 ht).2
    (Tree.ofSnapshot_eq_ok_iff.1 ht').2 hshuffled
  refine ⟨t', ht', fun columns column hcolumn hactive hties expanded => ?_,
    tieless_orderByName_iff lower⟩
  have htotal := transCmp_of_mem_columnsBy lower hcolumn
  have hsorts : (Listing.mk t columns expanded).SortsWithoutTies column :=
    ⟨hactive, order_bare lower hcolumn, hties⟩
  exact (Listing.ids_onTree hsorts htrees).symm

/-- A folder with two files in it and an empty folder beside it, all children put in some order
before they are sent. -/
def shelves (arrange : List (Snapshot WorkspaceEntry) → List (Snapshot WorkspaceEntry)) :
    Snapshot WorkspaceEntry :=
  let data : WorkspaceEntry := ⟨⟨"ada", "Ada"⟩, none, none, .folder ⟨0, 0, 0, 0⟩⟩
  .node "root" "Root" data (arrange
    [.node "a" "A" data (arrange [.leaf "x" "X" data false, .leaf "y" "Y" data false]),
      .node "b" "B" data []])

def sentShelves : Snapshot WorkspaceEntry :=
  shelves fun children => children

def shelvesTree : Tree WorkspaceEntry where
  root := sentShelves.entry none
  others := sentShelves.placed.map Snapshot.placedEntry
  nested := ⟨sentShelves, rfl, rfl⟩
  nodup := by decide

theorem shuffled_shelves : sentShelves.Shuffled (shelves List.reverse) := by
  refine .node ?_ (List.reverse_perm _).symm
  refine .cons (.node ?_ (List.reverse_perm _).symm) (.cons (.node .nil .nil) .nil)
  exact .cons (.leaf _ _ _ _) (.cons (.leaf _ _ _ _) .nil)

theorem rows_ignore_sent_order_shelves :
    let columns : Columns WorkspaceEntry := ⟨"Name", true, columnsBy Text.lowerCase⟩
    sentShelves.Shuffled (shelves List.reverse) ∧ Tree.ofSnapshot sentShelves = .ok shelvesTree ∧
      shelvesTree.Tieless (orderByName Text.lowerCase) ∧
      ∃ t', Tree.ofSnapshot (shelves List.reverse) = .ok t' ∧
        (Listing.mk t' columns (.ofIds ["a"])).ids = ["b", "a", "y", "x"] := by
  intro columns
  have hbuilt : Tree.ofSnapshot sentShelves = .ok shelvesTree :=
    Tree.ofSnapshot_eq_ok_iff.2 ⟨rfl, rfl⟩
  obtain ⟨t', ht', hrows, hname⟩ := rows_ignore_sent_order Text.lowerCase shuffled_shelves hbuilt
  have hnames : ∀ p ∈ shelvesTree.entries,
      ((shelvesTree.childrenOf p).map Entry.name).Nodup := by decide
  have hties : shelvesTree.Tieless (orderByName Text.lowerCase) :=
    hname.2 fun p hp x hx y hy _ hxy => List.inj_on_of_nodup_map (hnames p hp) hx hy hxy
  have hids : (Listing.mk shelvesTree columns (.ofIds ["a"])).ids = ["b", "a", "y", "x"] := by
    rw [← Listing.ids_unsorted (by decide +kernel)]
    decide +kernel
  refine ⟨shuffled_shelves, hbuilt, hties, t', ht', ?_⟩
  rw [← hrows columns _ List.mem_cons_self rfl hties, hids]

end Workspace

end TreeBrowser
