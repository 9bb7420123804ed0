import TreeBrowser.Proofs.Browser.Effects
import TreeBrowser.Proofs.Browser.Sound
import TreeBrowser.Proofs.Tree.Relocate
import TreeBrowser.Proofs.Workspace.Samples

/-!
# Dropping and fetching again

The move that a drop asks for can be made in the snapshot of which the tree was built, and loses
nothing there. When the moved snapshot is fetched again, everything that the user was doing is still
where it was.
-/

namespace TreeBrowser

variable {α : Type}

namespace Tree

variable {t : Tree α} {s : Snapshot α}

/-- What a drag takes along from a selection of distinct entries can be moved wherever the check of
the target lets it. -/
theorem movable (h : s.entries = t.entries) {selected ids : List EntryId}
    {dragged target : EntryId} (hselected : selected.Nodup)
    (hids : t.idsToMove selected dragged = .ok ids) (hcheck : t.checkMove ids target = .ok ()) :
    s.Movable ids target := by
  obtain ⟨-, rfl⟩ := idsToMove_eq_ok_iff.1 hids
  obtain ⟨hnode, hsafe⟩ := checkMove_eq_ok_iff.1 hcheck
  refine ⟨nodup_ids h, (topmost_sublist selected).nodup hselected, ?_, ?_, ?_, ?_⟩
  · intro id hid
    exact (contains_iff_mem_ids h).1 (hsafe id hid).1
  · intro c hc hid d hd hid'
    have hdesc := isDescendantOf_of_mem_below h hc hd
    rw [not_isDescendantOf_of_mem_topmost hid' hid] at hdesc
    cases hdesc
  · obtain ⟨e, he, hid, hnode⟩ := (isNode_iff_mem_contents h).1 hnode
    obtain ⟨c, hc, rfl⟩ := List.mem_map.1 he
    rw [Snapshot.bareEntry_id] at hid
    rw [Snapshot.isNode_bareEntry] at hnode
    exact ⟨c, hc, hid, hnode⟩
  · intro c hc hid htarget
    obtain ⟨-, hne, hdesc⟩ := hsafe c.id hid
    rcases eq_or_isDescendantOf_of_mem_ids h hc htarget with heq | hdesc'
    · exact hne heq.symm
    · rw [hdesc] at hdesc'
      cases hdesc'

end Tree

namespace Browser

variable {b : Browser}

/-- The move that a drop asks for is one that can be made: there is something to move, what moves is
held in distinct places of the snapshot, and the folder that it goes into is in none of them. After
the move the snapshot has the same top and the same entries, what has moved at the end of that
folder and all else in the folder in which it was; it is a tree again; and when it is fetched as the
workspace that it was, the selection, the cursor, the open folders and the name that is edited stay
as they are. -/
theorem drop_refetch (hb : b.Reachable) {s : Snapshot WorkspaceEntry}
    (hs : Tree.ofSnapshot s = .ok b.tree) {dragged target newParent : EntryId}
    {ids : List EntryId}
    (hdrop : .moveEntries ids newParent ∈ (b.dispatch (.drop dragged target)).2.effects) :
    let moved := s.picked ids
    let s' := s.relocate ids newParent
    ids ≠ [] ∧ moved.map Snapshot.id = ids ∧ (∀ c ∈ moved, c ∈ s.parts) ∧
    (moved.Pairwise fun c d => c.ids.Disjoint d.ids) ∧
    (∃ folder ∈ s.parts, folder.id = newParent ∧ folder.isNode = true) ∧
    (∀ c ∈ moved, newParent ∉ c.ids) ∧
    s'.bareEntry none = s.bareEntry none ∧
    s'.contents.Perm s.contents ∧
    (∃ parent folder, s'.Occurs parent folder ∧ folder.id = newParent ∧
      moved <:+ folder.children) ∧
    (∀ p d, s.Occurs (some p) d → ∃ d', d'.bareEntry none = d.bareEntry none ∧
      s'.Occurs (some (if d.id ∈ ids then newParent else p)) d') ∧
    ∃ t', Tree.ofSnapshot s' = .ok t' ∧
      ∀ metadata : WorkspaceMetadata, metadata.id = b.workspace.id →
        let b' := (b.dispatch (.replaceWorkspace ⟨metadata, t'⟩)).1
        b'.selection = b.selection ∧ b'.cursor = b.cursor ∧ b'.expanded = b.expanded ∧
          b'.editing = b.editing := by
  intro moved s'
  have hsound := hb.sound
  obtain ⟨-, hentries⟩ := Tree.ofSnapshot_eq_ok_iff.1 hs
  obtain ⟨ids', hids, hcheck, heffect⟩ := mem_drop_effects_iff.1 hdrop
  cases heffect
  have hmovable := Tree.movable hentries hsound.selection.nodup hids hcheck
  obtain ⟨hdragged, htopmost⟩ := Tree.idsToMove_eq_ok_iff.1 hids
  have hnonempty : ids ≠ [] := by
    rw [htopmost]
    exact Tree.topmost_ne_nil hdragged
  have hperm := hmovable.relocate_perm
  obtain ⟨t', ht'⟩ := hmovable.exists_tree
  obtain ⟨-, hentries'⟩ := Tree.ofSnapshot_eq_ok_iff.1 ht'
  refine ⟨hnonempty, Snapshot.picked_ids hmovable.nodup hmovable.known,
    fun c hc => (hmovable.of_mem_picked hc).1, hmovable.pairwise_disjoint, hmovable.folder,
    fun c => hmovable.target_not_mem, Snapshot.bareEntry_relocate ids target s none, hperm,
    hmovable.exists_target, fun _ _ => hmovable.occurs_relocate, t', ht', ?_⟩
  intro metadata hid b'
  have hb' : b' = { b with workspace := ⟨metadata, t'⟩ } :=
    hsound.replaceWorkspace_eq hid
      (fun _ => Tree.contains_of_contents_perm hentries hentries' hperm)
      (fun _ => Tree.isNode_of_contents_perm hentries hentries' hperm)
  rw [hb']
  exact ⟨rfl, rfl, rfl, rfl⟩

def bothFilesSelected : Browser :=
  (start (workspaceOf twoFoldersTree) {}).run [.click "x" .none, .click "c" .onlyMeta]

theorem drop_refetch_twoFolders :
    .moveEntries ["x", "c"] "b" ∈ (bothFilesSelected.dispatch (.drop "c" "b")).2.effects ∧
      (twoFolders.relocate ["x", "c"] "b").ids = ["root", "a", "b", "x", "c"] ∧
      ∃ t', Tree.ofSnapshot (twoFolders.relocate ["x", "c"] "b") = .ok t' := by
  have hreachable : bothFilesSelected.Reachable := (Reachable.start _ _).run _
  have hbuilt : Tree.ofSnapshot twoFolders = .ok bothFilesSelected.tree :=
    Tree.ofSnapshot_eq_ok_iff.2 ⟨rfl, rfl⟩
  have hdrop : .moveEntries ["x", "c"] "b" ∈
      (bothFilesSelected.dispatch (.drop "c" "b")).2.effects := by decide
  obtain ⟨-, -, -, -, -, -, -, -, -, -, t', ht', -⟩ := drop_refetch hreachable hbuilt hdrop
  exact ⟨hdrop, rfl, t', ht'⟩

end Browser

end TreeBrowser
