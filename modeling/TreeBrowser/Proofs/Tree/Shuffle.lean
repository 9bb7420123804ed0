import Mathlib.Data.List.Forall2
import TreeBrowser.Proofs.Tree.Relocate

/-!
# Shuffled snapshots

Two snapshots that are the same but for the order of children, in any of their folders. They hold
the same entries, so both of them are trees or neither is one. In the two trees an id stands for the
same entry, the list of its children apart, and that is the same list in another order.
-/

open scoped List

namespace TreeBrowser

variable {α : Type}

namespace Snapshot

variable {s s' : Snapshot α}

/-- The snapshots are the same but for the order of the children of folders, at every depth. -/
inductive Shuffled : Snapshot α → Snapshot α → Prop
  | node {id : EntryId} {name : String} {data : α} {children between children' : List (Snapshot α)} :
    List.Forall₂ Shuffled children between → between ~ children' →
      Shuffled (.node id name data children) (.node id name data children')
  | leaf (id : EntryId) (name : String) (data : α) (expandable : Bool) :
    Shuffled (.leaf id name data expandable) (.leaf id name data expandable)

namespace Shuffled

theorem bareEntry_eq (h : s.Shuffled s') (parent : Option EntryId) :
    s.bareEntry parent = s'.bareEntry parent := by
  cases h <;> rfl

theorem id_eq (h : s.Shuffled s') : s.id = s'.id := by
  rw [← bareEntry_id none s, h.bareEntry_eq, bareEntry_id]

theorem exists_children (h : s.Shuffled s') :
    ∃ between, List.Forall₂ Shuffled s.children between ∧ between ~ s'.children := by
  cases h with
  | node hall hperm => exact ⟨_, hall, hperm⟩
  | leaf => exact ⟨[], List.Forall₂.nil, List.Perm.refl _⟩

theorem exists_child (h : s.Shuffled s') {c : Snapshot α} (hc : c ∈ s.children) :
    ∃ c' ∈ s'.children, c.Shuffled c' := by
  obtain ⟨between, hall, hperm⟩ := h.exists_children
  obtain ⟨i, hi, rfl⟩ := List.mem_iff_getElem.1 hc
  have hi' : i < between.length := hall.length_eq ▸ hi
  exact ⟨between[i], hperm.mem_iff.1 (List.getElem_mem hi'), hall.get hi hi'⟩

theorem children_perm (h : s.Shuffled s') (parent : Option EntryId) :
    s.children.map (bareEntry parent) ~ s'.children.map (bareEntry parent) := by
  obtain ⟨between, hall, hperm⟩ := h.exists_children
  have hsame : s.children.map (bareEntry parent) = between.map (bareEntry parent) := by
    rw [← List.forall₂_eq_eq_eq, List.forall₂_map_left_iff, List.forall₂_map_right_iff]
    exact hall.imp fun _ _ hc => hc.bareEntry_eq parent
  rw [hsame]
  exact hperm.map _

theorem contents_perm (h : s.Shuffled s') : s.contents ~ s'.contents := by
  induction s using nestedInduction generalizing s' with
  | leaf =>
    cases h
    exact List.Perm.refl _
  | node id name data children ih =>
    cases h with
    | @node _ _ _ _ between children' hall hperm =>
      have hbelow : children.flatMap contents ~ between.flatMap contents := by
        clear hperm
        induction hall with
        | nil => exact List.Perm.refl _
        | cons hc _ ihrest =>
          rw [List.forall_mem_cons] at ih
          rw [List.flatMap_cons, List.flatMap_cons]
          exact (ih.1 hc).append (ihrest ih.2)
      rw [contents_eq, contents_eq]
      exact (hbelow.trans (hperm.flatMap_right contents)).cons _

theorem exists_occurs (h : s.Shuffled s') {parent : Option EntryId} {c : Snapshot α}
    (hc : s.Occurs parent c) : ∃ c', s'.Occurs parent c' ∧ c.Shuffled c' := by
  induction hc with
  | top => exact ⟨s', Occurs.top, h⟩
  | child _ hc ih =>
    obtain ⟨folder', hfolder', hshuffled⟩ := ih
    obtain ⟨c', hc', hchild⟩ := hshuffled.exists_child hc
    rw [hshuffled.id_eq]
    exact ⟨c', hfolder'.child hc', hchild⟩

/-- What is a tree is one in any order of the children. -/
theorem exists_tree (h : s.Shuffled s') {t : Tree α} (ht : Tree.ofSnapshot s = .ok t) :
    ∃ t', Tree.ofSnapshot s' = .ok t' := by
  obtain ⟨hs, hnodup⟩ := Tree.exists_ofSnapshot_iff.1 ⟨t, ht⟩
  rw [← isNode_bareEntry none, h.bareEntry_eq, isNode_bareEntry] at hs
  rw [← contents_ids, (h.contents_perm.map Entry.id).nodup_iff, contents_ids] at hnodup
  exact Tree.exists_ofSnapshot_iff.2 ⟨hs, hnodup⟩

end Shuffled

end Snapshot

/-! ## Shuffled trees -/

def Entry.bare (e : Entry α) : Entry α :=
  match e.kind with
  | .node _ => { e with kind := .node [] }
  | .leaf _ => e

@[simp] theorem Entry.bare_id (e : Entry α) : e.bare.id = e.id := by
  unfold bare
  split <;> rfl

@[simp] theorem Entry.bare_name (e : Entry α) : e.bare.name = e.name := by
  unfold bare
  split <;> rfl

@[simp] theorem Entry.bare_data (e : Entry α) : e.bare.data = e.data := by
  unfold bare
  split <;> rfl

@[simp] theorem Entry.bare_isNode (e : Entry α) : e.bare.isNode = e.isNode := by
  unfold bare
  split
  · rename_i hkind
    simp [isNode, hkind]
  · rfl

theorem Snapshot.bare_entry (parent : Option EntryId) (s : Snapshot α) :
    (s.entry parent).bare = s.bareEntry parent := by
  cases s <;> rfl

namespace Tree

/-- An id stands for the same entry in both trees, but its children are listed in any order. -/
structure Shuffled (t t' : Tree α) : Prop where
  root : t.root.id = t'.root.id
  bare : ∀ e ∈ t.entries, ∀ e' ∈ t'.entries, e.id = e'.id → e.bare = e'.bare
  children : ∀ e ∈ t.entries, ∀ e' ∈ t'.entries, e.id = e'.id →
    (t.childrenOf e).map Entry.bare ~ (t'.childrenOf e').map Entry.bare

variable {t t' : Tree α} {s s' : Snapshot α}

theorem map_bare_childrenOf (h : s.entries = t.entries) {parent : Option EntryId}
    {folder : Snapshot α} (hfolder : s.Occurs parent folder) :
    (t.childrenOf (folder.entry parent)).map Entry.bare =
      folder.children.map (Snapshot.bareEntry (some folder.id)) := by
  rw [childrenOf_entry h hfolder, List.map_map]
  exact List.map_congr_left fun c _ => Snapshot.bare_entry _ c

theorem shuffled_of_snapshots (h : s.entries = t.entries) (h' : s'.entries = t'.entries)
    (hshuffled : s.Shuffled s') : t.Shuffled t' := by
  have hpart {e e' : Entry α} (he : e ∈ t.entries) (he' : e' ∈ t'.entries) (hid : e.id = e'.id) :
      ∃ parent c c', s.Occurs parent c ∧ s'.Occurs parent c' ∧ c.Shuffled c' ∧
        e = c.entry parent ∧ e' = c'.entry parent := by
    obtain ⟨parent, c, hc, rfl⟩ := (mem_entries_iff h).1 he
    obtain ⟨c', hc', hcc'⟩ := hshuffled.exists_occurs hc
    refine ⟨parent, c, c', hc, hc', hcc', rfl, eq_of_id_eq he' (entry_mem h' hc') ?_⟩
    rw [← hid, Snapshot.entry_id, Snapshot.entry_id, hcc'.id_eq]
  refine ⟨?_, fun e he e' he' hid => ?_, fun e he e' he' hid => ?_⟩
  · rw [root_eq h, root_eq h', Snapshot.entry_id, Snapshot.entry_id, hshuffled.id_eq]
  · obtain ⟨parent, c, c', -, -, hcc', rfl, rfl⟩ := hpart he he' hid
    rw [Snapshot.bare_entry, Snapshot.bare_entry, hcc'.bareEntry_eq]
  · obtain ⟨parent, c, c', hc, hc', hcc', rfl, rfl⟩ := hpart he he' hid
    rw [map_bare_childrenOf h hc, map_bare_childrenOf h' hc', ← hcc'.id_eq]
    exact hcc'.children_perm _

end Tree

end TreeBrowser
