import TreeBrowser.Outline
import TreeBrowser.Proofs.Browser.Run
import TreeBrowser.Proofs.Selection
import TreeBrowser.Proofs.Tree.Nesting
import TreeBrowser.Proofs.VisualOrder.Blocks
import TreeBrowser.Proofs.Workspace.Samples

/-!
# Reading the tree off an outline

An outline has a row for each id of the visual order, indented by its depth. That is enough to find
the folder of each row: the nearest row above it that is indented by one less. The rows below a
folder follow it at once when it is marked open and holds something, and the marks of focus and
selection stand where they should.
-/

namespace TreeBrowser

namespace Browser

variable {b : Browser} {e q : Entry WorkspaceEntry} {row : OutlineRow} {i j : Nat}

/-- In rows that are indented so, `j` is the nearest row before `i` that is indented by one less. -/
def NearestOuter (indents : List Nat) (j i : Nat) : Prop :=
  j < i ∧ ∃ k, indents[j]? = some k ∧ indents[i]? = some (k + 1) ∧
    ∀ m, j < m → m < i → indents[m]? ≠ some k

/-- `b.ShowsEntry i e row`: in the outline, `row` is what the row `i` shows of the entry `e`. -/
structure ShowsEntry (b : Browser) (i : Nat) (e : Entry WorkspaceEntry) (row : OutlineRow) : Prop where
  known : b.tree.get? e.id = some e
  printed : row.text.toList =
    [if row.focused then '>' else ' ', if row.selected then '*' else ' ', ' ']
      ++ List.replicate (2 * row.indent) ' ' ++ e.name.toList
      ++ row.openFolder.elim [] fun isOpen => (if isOpen then "/ [-]" else "/ [+]").toList
  openFolder_eq : row.openFolder = if e.isNode then some (b.expanded.contains e.id) else none
  /-- The indent is a difference that nothing is cut off from. -/
  indent_succ : row.indent + 1 = b.tree.depth e.id
  top_iff : row.indent = 0 ↔ b.tree.parent? e.id = some b.tree.root
  folder : 0 < row.indent → ∃ j q, NearestOuter (b.outline.map OutlineRow.indent) j i ∧
    b.rowIds[j]? = some q.id ∧ b.tree.parent? e.id = some q
  deeper_iff : (∃ next, b.outline[i + 1]? = some next ∧ row.indent < next.indent) ↔
    row.openFolder = some true ∧ e.isNode = true ∧ e.children ≠ []
  focused_iff : row.focused = true ↔ b.selection.focused = some e.id
  selected_iff : row.selected = true ↔ e.id ∈ b.selection.selected

/-! ## Rows and entries -/

theorem rowIds_getElem?_eq_some_iff {id : EntryId} :
    b.rowIds[i]? = some id ↔ ∃ e, b.listing.rows[i]? = some e ∧ e.id = id := by
  rw [rowIds, Listing.ids, List.getElem?_map, Option.map_eq_some_iff]

theorem outline_getElem?_eq_some_iff :
    b.outline[i]? = some row ↔ ∃ e, b.listing.rows[i]? = some e ∧ b.outlineRow e = row := by
  rw [outline, List.getElem?_map, Option.map_eq_some_iff]

theorem indents_getElem? (i : Nat) :
    (b.outline.map OutlineRow.indent)[i]? =
      b.listing.rows[i]?.map fun e => b.tree.depth e.id - 1 := by
  rw [outline, List.map_map, List.getElem?_map]
  rfl

theorem isFocused_iff {s : Selection} {id : EntryId} :
    s.isFocused id = true ↔ s.focused = some id := by
  rw [Selection.isFocused, beq_iff_eq]

/-! ## One row -/

theorem openFolder_outlineRow_iff :
    (b.outlineRow e).openFolder = some true ↔ b.listing.isOpen e = true := by
  rw [outlineRow, Listing.isOpen]
  cases e.isNode with
  | true => simp [listing]
  | false => simp

theorem toList_text (row : OutlineRow) :
    row.text.toList =
      [if row.focused then '>' else ' ', if row.selected then '*' else ' ', ' ']
        ++ List.replicate (2 * row.indent) ' ' ++ row.name.toList
        ++ row.openFolder.elim [] fun isOpen => (if isOpen then "/ [-]" else "/ [+]").toList := by
  obtain ⟨focused, selected, indent, name, openFolder⟩ := row
  cases focused <;> cases selected <;> rcases openFolder with _ | _ | _ <;>
    simp [OutlineRow.text]

theorem nearestOuter_folder (hq : q ∈ b.tree.entries) (he : e ∈ b.tree.childrenOf q)
    (hroot : q ≠ b.tree.root) (hi : b.listing.rows[i]? = some e) :
    ∃ j, NearestOuter (b.outline.map OutlineRow.indent) j i ∧ b.rowIds[j]? = some q.id := by
  obtain ⟨j, hlt, hj, -, hbelow⟩ := Listing.exists_folder_row hq he hroot hi
  have hpos : 0 < b.tree.depth q.id := Listing.depth_pos (List.mem_of_getElem? hj)
  have hdepth : b.tree.depth e.id = b.tree.depth q.id + 1 := Tree.depth_child hq he
  refine ⟨j, ⟨hlt, b.tree.depth q.id - 1, ?_, ?_, ?_⟩, rowIds_getElem?_eq_some_iff.2 ⟨q, hj, rfl⟩⟩
  · rw [indents_getElem?, hj, Option.map_some]
  · rw [indents_getElem?, hi, Option.map_some, hdepth]
    congr 1
    omega
  · -- The rows between the two are below the folder, so they are indented by more than it is.
    intro m hjm hmi hindent
    rw [indents_getElem?, Option.map_eq_some_iff] at hindent
    obtain ⟨y, hy, hyq⟩ := hindent
    have hdesc := hbelow m y hjm (Nat.le_of_lt hmi) hy
    have hdeeper : b.tree.depth q.id < b.tree.depth y.id := Tree.depth_lt_of_isDescendantOf hdesc
    omega

theorem next_indent_iff (hi : b.listing.rows[i]? = some e) :
    (∃ next, b.outline[i + 1]? = some next ∧ (b.outlineRow e).indent < next.indent) ↔
      ∃ y, b.listing.rows[i + 1]? = some y ∧ b.tree.depth e.id < b.tree.depth y.id := by
  have hpos : 0 < b.tree.depth e.id := Listing.depth_pos (List.mem_of_getElem? hi)
  have hlt (y : Entry WorkspaceEntry) :
      (b.outlineRow e).indent < (b.outlineRow y).indent ↔
        b.tree.depth e.id < b.tree.depth y.id := by
    change b.tree.depth e.id - 1 < b.tree.depth y.id - 1 ↔ _
    omega
  constructor
  · rintro ⟨next, hnext, hindent⟩
    obtain ⟨y, hy, rfl⟩ := outline_getElem?_eq_some_iff.1 hnext
    exact ⟨y, hy, (hlt y).1 hindent⟩
  · rintro ⟨y, hy, hdepth⟩
    exact ⟨_, outline_getElem?_eq_some_iff.2 ⟨y, hy, rfl⟩, (hlt y).2 hdepth⟩

theorem shows_outlineRow (hi : b.listing.rows[i]? = some e) : b.ShowsEntry i e (b.outlineRow e) := by
  have hrow := List.mem_of_getElem? hi
  have hmem : e ∈ b.tree.entries := Listing.mem_entries_of_mem_rows hrow
  obtain ⟨q, hq, he⟩ : ∃ q ∈ b.tree.entries, e ∈ b.tree.childrenOf q :=
    Listing.exists_folder_of_mem_rows hrow
  have hparent := Tree.parent?_child hq he
  have hdepth : b.tree.depth e.id = b.tree.depth q.id + 1 := Tree.depth_child hq he
  have hindent : (b.outlineRow e).indent = b.tree.depth q.id := by
    change b.tree.depth e.id - 1 = _
    omega
  have hroot : b.tree.depth q.id = 0 ↔ q = b.tree.root := Tree.depth_eq_zero_iff hq
  refine
    { known := Tree.get?_of_mem hmem
      printed := toList_text _
      openFolder_eq := rfl
      indent_succ := by omega
      top_iff := ?_
      folder := ?_
      deeper_iff := ?_
      focused_iff := isFocused_iff
      selected_iff := Selection.isSelected_iff }
  · rw [hindent, hroot, hparent, Option.some.injEq]
  · intro hlt
    have hne : q ≠ b.tree.root := fun heq => by
      rw [hindent, hroot.2 heq] at hlt
      exact Nat.lt_irrefl 0 hlt
    obtain ⟨j, hnearest, hj⟩ := nearestOuter_folder hq he hne hi
    exact ⟨j, q, hnearest, hj, hparent⟩
  · rw [next_indent_iff hi, openFolder_outlineRow_iff]
    refine (Listing.next_deeper_iff hi).trans ?_
    constructor
    · rintro ⟨hopen, hchildren⟩
      exact ⟨hopen, (Bool.and_eq_true_iff.1 hopen).1, hchildren⟩
    · rintro ⟨hopen, -, hchildren⟩
      exact ⟨hopen, hchildren⟩

/-- Whatever has been done, the outline of a browser shows the tree: it has one row for each id of
the visual order, in that order, and each row shows its entry. At most one row is marked as focused,
and the rows marked as selected are those of the selected entries in the visual order. -/
theorem outline_shows_tree (b : Browser) :
    b.outline.length = b.rowIds.length ∧
    (∀ i id, b.rowIds[i]? = some id →
      ∃ e row, e.id = id ∧ b.outline[i]? = some row ∧ b.ShowsEntry i e row) ∧
    (∀ (i j : Nat) (row row' : OutlineRow), b.outline[i]? = some row → b.outline[j]? = some row' →
      row.focused = true → row'.focused = true → i = j) ∧
    ∀ id, (∃ (i : Nat) (row : OutlineRow), b.rowIds[i]? = some id ∧ b.outline[i]? = some row ∧
      row.selected = true) ↔ id ∈ b.rowIds ∧ id ∈ b.selection.selected := by
  refine ⟨?_, ?_, ?_, fun id => ⟨?_, ?_⟩⟩
  · rw [outline, rowIds, Listing.ids, List.length_map, List.length_map]
  · intro i id hid
    obtain ⟨e, hi, rfl⟩ := rowIds_getElem?_eq_some_iff.1 hid
    exact ⟨e, _, rfl, outline_getElem?_eq_some_iff.2 ⟨e, hi, rfl⟩, shows_outlineRow hi⟩
  · intro i j row row' hi hj hfocused hfocused'
    obtain ⟨e, he, rfl⟩ := outline_getElem?_eq_some_iff.1 hi
    obtain ⟨e', he', rfl⟩ := outline_getElem?_eq_some_iff.1 hj
    have hid := isFocused_iff.1 hfocused
    rw [isFocused_iff.1 hfocused', Option.some.injEq] at hid
    rw [Tree.eq_of_id_eq (Listing.mem_entries_of_mem_rows (List.mem_of_getElem? he'))
      (Listing.mem_entries_of_mem_rows (List.mem_of_getElem? he)) hid] at he'
    exact Listing.eq_of_getElem?_rows he he'
  · rintro ⟨i, row, hid, hrow, hselected⟩
    obtain ⟨e, he, rfl⟩ := outline_getElem?_eq_some_iff.1 hrow
    have heq : e.id = id := by
      rw [rowIds_getElem?_eq_some_iff.2 ⟨e, he, rfl⟩] at hid
      exact Option.some.inj hid
    exact ⟨List.mem_of_getElem? hid, heq ▸ Selection.isSelected_iff.1 hselected⟩
  · rintro ⟨hid, hselected⟩
    obtain ⟨i, hi⟩ := List.getElem?_of_mem hid
    obtain ⟨e, he, rfl⟩ := rowIds_getElem?_eq_some_iff.1 hi
    exact ⟨i, _, hi, outline_getElem?_eq_some_iff.2 ⟨e, he, rfl⟩,
      Selection.isSelected_iff.2 hselected⟩

theorem outline_shows_tree_twoFolders :
    let b := (start (workspaceOf twoFoldersTree) {}).run [.expand "a", .click "x" .none]
    b.rowIds = ["a", "x", "b", "c"] ∧
    ∃ e row, b.outline[1]? = some row ∧ b.ShowsEntry 1 e row ∧ e.id = "x" ∧ row.indent = 1 ∧
      row.selected = true ∧
      ∃ (j : Nat) (q : Entry WorkspaceEntry), NearestOuter (b.outline.map OutlineRow.indent) j 1 ∧
        b.rowIds[j]? = some q.id ∧ q.id = "a" := by
  intro b
  have hids : b.rowIds = ["a", "x", "b", "c"] := by
    rw [rowIds, ← Listing.ids_unsorted named_in_order_twoFolders]
    rfl
  obtain ⟨-, hrows, -, -⟩ := outline_shows_tree b
  obtain ⟨e, row, hid, hrow, hshows⟩ := hrows 1 "x" (by rw [hids]; rfl)
  have hdepth : b.tree.depth e.id = 2 := by
    rw [hid]
    decide +kernel
  have hindent : row.indent = 1 := by
    have hsucc := hshows.indent_succ
    omega
  have hselected : e.id ∈ b.selection.selected := by
    rw [hid]
    decide
  obtain ⟨j, q, hnearest, hj, hparent⟩ := hshows.folder (by omega)
  have hq : q.id = "a" := by
    have hfolder : (b.tree.parent? e.id).map Entry.id = some "a" := by
      rw [hid]
      decide +kernel
    rw [hparent] at hfolder
    exact Option.some.inj hfolder
  exact ⟨hids, e, row, hrow, hshows, hid, hindent, hshows.selected_iff.2 hselected, j, q, hnearest,
    hj, hq⟩

end Browser

end TreeBrowser
