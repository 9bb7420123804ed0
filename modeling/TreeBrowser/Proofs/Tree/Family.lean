import TreeBrowser.Proofs.Tree.MeetingOrder
import TreeBrowser.Tree.Basic

/-!
# Parents and children in a tree

The questions that a tree answers by ids, read as statements on the entries themselves. Every entry
but the root is a child of exactly one folder, which stands before it in the table.
-/

namespace TreeBrowser

variable {α : Type}

theorem find?_eq_some_of_nodup {β : Type} {key : β → EntryId} {l : List β}
    (hnodup : (l.map key).Nodup) {b : β} (hb : b ∈ l) :
    (l.find? fun x => key x == key b) = some b := by
  rw [List.find?_eq_some_iff_append]
  obtain ⟨before, after, rfl⟩ := List.append_of_mem hb
  refine ⟨by simp, before, after, rfl, fun x hx => ?_⟩
  simp only [List.map_append, List.map_cons, List.nodup_append] at hnodup
  have hne := hnodup.2.2 (key x) (List.mem_map_of_mem hx) (key b) List.mem_cons_self
  simpa using hne

theorem Snapshot.isNode_entry (parent : Option EntryId) (s : Snapshot α) :
    (s.entry parent).isNode = s.isNode := by
  cases s <;> rfl

theorem Snapshot.parent_entry (parent : Option EntryId) (s : Snapshot α) :
    (s.entry parent).parent = parent := by
  cases s <;> rfl

theorem Snapshot.children_entry (parent : Option EntryId) (s : Snapshot α) :
    (s.entry parent).children = s.children.map Snapshot.id := by
  cases s <;> rfl

namespace Tree

variable {t : Tree α}

theorem get?_eq_some_iff {id : EntryId} {e : Entry α} :
    t.get? id = some e ↔ e ∈ t.entries ∧ e.id = id := by
  constructor
  · intro h
    have hid := List.find?_some h
    exact ⟨List.mem_of_find?_eq_some h, by simpa using hid⟩
  · rintro ⟨he, rfl⟩
    exact find?_eq_some_of_nodup t.nodup he

theorem get?_of_mem {e : Entry α} (he : e ∈ t.entries) : t.get? e.id = some e :=
  get?_eq_some_iff.2 ⟨he, rfl⟩

theorem contains_iff {id : EntryId} : t.contains id = true ↔ ∃ e ∈ t.entries, e.id = id := by
  rw [Table.mem_ids_of_contains, Table.ids, List.mem_map]

theorem contains_of_mem {e : Entry α} (he : e ∈ t.entries) : t.contains e.id = true :=
  contains_iff.2 ⟨e, he, rfl⟩

theorem isNode_iff {id : EntryId} :
    t.isNode id = true ↔ ∃ e ∈ t.entries, e.id = id ∧ e.isNode = true := by
  rw [isNode, Option.any_eq_true]
  simp only [get?_eq_some_iff, and_assoc]

theorem contains_of_isNode {id : EntryId} (h : t.isNode id = true) : t.contains id = true := by
  obtain ⟨e, he, rfl, -⟩ := isNode_iff.1 h
  exact contains_of_mem he

theorem isNode_eq_false {id : EntryId} (h : t.contains id = false) : t.isNode id = false := by
  rw [Bool.eq_false_iff] at h ⊢
  exact fun hnode => h (contains_of_isNode hnode)

theorem eq_of_id_eq {e e' : Entry α} (he : e ∈ t.entries) (he' : e' ∈ t.entries)
    (h : e.id = e'.id) : e = e' :=
  List.inj_on_of_nodup_map t.nodup he he' h

theorem root_mem : t.root ∈ t.entries :=
  List.mem_cons_self

theorem root_eq {s : Snapshot α} (h : s.entries = t.entries) : t.root = s.entry none :=
  (List.cons.inj h).1.symm

theorem root_isNode : t.root.isNode = true := by
  obtain ⟨s, hs, h⟩ := t.nested
  rw [root_eq h, Snapshot.isNode_entry, hs]

theorem root_parent : t.root.parent = none := by
  obtain ⟨s, -, h⟩ := t.nested
  rw [root_eq h, Snapshot.parent_entry]

theorem nodup_met {s : Snapshot α} (h : s.entries = t.entries) : (s.met.map Snapshot.id).Nodup := by
  rw [← Snapshot.entries_ids, h]
  exact t.nodup

theorem nodup_ids {s : Snapshot α} (h : s.entries = t.entries) : s.ids.Nodup :=
  ((s.met_perm.map Snapshot.id).nodup_iff).1 (nodup_met h)

theorem mem_entries_iff {s : Snapshot α} (h : s.entries = t.entries) {e : Entry α} :
    e ∈ t.entries ↔ ∃ parent c, s.Occurs parent c ∧ e = c.entry parent := by
  rw [← h, Snapshot.mem_entries_iff]

theorem entry_mem {s : Snapshot α} (h : s.entries = t.entries) {parent : Option EntryId}
    {c : Snapshot α} (hc : s.Occurs parent c) : c.entry parent ∈ t.entries :=
  (mem_entries_iff h).2 ⟨parent, c, hc, rfl⟩

theorem contains_iff_mem_ids {s : Snapshot α} (h : s.entries = t.entries) {id : EntryId} :
    t.contains id = true ↔ id ∈ s.ids := by
  rw [Table.mem_ids_of_contains, Table.ids, ← (s.entries_ids_perm).mem_iff, h]

/-! ## Children -/

theorem childrenOf_entry {s : Snapshot α} (h : s.entries = t.entries) {parent : Option EntryId}
    {folder : Snapshot α} (hfolder : s.Occurs parent folder) :
    t.childrenOf (folder.entry parent) =
      folder.children.map (Snapshot.entry (some folder.id)) := by
  rw [childrenOf, Snapshot.children_entry, List.filterMap_map]
  calc folder.children.filterMap (t.get? ∘ Snapshot.id)
      = folder.children.filterMap (fun c => some (c.entry (some folder.id))) := by
        apply List.filterMap_congr
        intro c hc
        have hget := get?_of_mem (entry_mem h (hfolder.child hc))
        rwa [Snapshot.entry_id] at hget
    _ = folder.children.map (Snapshot.entry (some folder.id)) := by
        rw [List.filterMap_eq_map']

theorem entry_mem_childrenOf {s : Snapshot α} (h : s.entries = t.entries)
    {parent : Option EntryId} {folder c : Snapshot α} (hfolder : s.Occurs parent folder)
    (hc : c ∈ folder.children) :
    c.entry (some folder.id) ∈ t.childrenOf (folder.entry parent) := by
  rw [childrenOf_entry h hfolder]
  exact List.mem_map_of_mem hc

theorem exists_parent {c : Entry α} (hc : c ∈ t.entries) {p : EntryId}
    (hp : c.parent = some p) : ∃ q ∈ t.entries, q.id = p ∧ c ∈ t.childrenOf q := by
  obtain ⟨s, -, h⟩ := t.nested
  obtain ⟨parent, d, hd, rfl⟩ := (mem_entries_iff h).1 hc
  rw [Snapshot.parent_entry] at hp
  subst hp
  cases hd with
  | @child parent folder _ hfolder hd =>
    exact ⟨folder.entry parent, entry_mem h hfolder, Snapshot.entry_id _ _,
      entry_mem_childrenOf h hfolder hd⟩

theorem mem_childrenOf_iff {q c : Entry α} (hq : q ∈ t.entries) :
    c ∈ t.childrenOf q ↔ c ∈ t.entries ∧ c.parent = some q.id := by
  constructor
  · intro hc
    obtain ⟨s, -, h⟩ := t.nested
    obtain ⟨parent, folder, hfolder, rfl⟩ := (mem_entries_iff h).1 hq
    rw [childrenOf_entry h hfolder] at hc
    obtain ⟨d, hd, rfl⟩ := List.mem_map.1 hc
    rw [Snapshot.parent_entry, Snapshot.entry_id]
    exact ⟨entry_mem h (hfolder.child hd), rfl⟩
  · rintro ⟨hc, hp⟩
    obtain ⟨q', hq', hid, hmem⟩ := exists_parent hc hp
    rwa [eq_of_id_eq hq hq' hid.symm]

theorem mem_of_mem_childrenOf {q c : Entry α} (hq : q ∈ t.entries) (hc : c ∈ t.childrenOf q) :
    c ∈ t.entries :=
  ((mem_childrenOf_iff hq).1 hc).1

theorem isNode_of_mem_childrenOf {q c : Entry α} (hc : c ∈ t.childrenOf q) :
    q.isNode = true := by
  rw [childrenOf, Entry.children] at hc
  rw [Entry.isNode]
  cases hkind : q.kind with
  | node => rfl
  | leaf => simp [hkind] at hc

theorem map_id_childrenOf {q : Entry α} (hq : q ∈ t.entries) :
    (t.childrenOf q).map Entry.id = q.children := by
  obtain ⟨s, -, h⟩ := t.nested
  obtain ⟨parent, folder, hfolder, rfl⟩ := (mem_entries_iff h).1 hq
  rw [childrenOf_entry h hfolder, List.map_map, Snapshot.children_entry]
  exact List.map_congr_left fun c _ => Snapshot.entry_id _ c

theorem childrenOf_nodup {q : Entry α} (hq : q ∈ t.entries) :
    ((t.childrenOf q).map Entry.id).Nodup := by
  rw [map_id_childrenOf hq]
  obtain ⟨s, -, h⟩ := t.nested
  obtain ⟨parent, folder, hfolder, rfl⟩ := (mem_entries_iff h).1 hq
  rw [Snapshot.children_entry]
  exact Snapshot.children_nodup (hfolder.ids_sublist.nodup (nodup_ids h))

theorem eq_root_iff {e : Entry α} (he : e ∈ t.entries) : e = t.root ↔ e.parent = none := by
  constructor
  · rintro rfl
    exact root_parent
  · intro hp
    obtain ⟨s, -, h⟩ := t.nested
    obtain ⟨parent, c, hc, rfl⟩ := (mem_entries_iff h).1 he
    rw [Snapshot.parent_entry] at hp
    subst hp
    cases hc
    exact (root_eq h).symm

theorem exists_folder {e : Entry α} (he : e ∈ t.entries) (hne : e ≠ t.root) :
    ∃ q ∈ t.entries, e ∈ t.childrenOf q := by
  cases hparent : e.parent with
  | none => exact absurd ((eq_root_iff he).2 hparent) hne
  | some p =>
    obtain ⟨q, hq, -, hmem⟩ := exists_parent he hparent
    exact ⟨q, hq, hmem⟩

/-- What holds of the root, and of the children of each folder of which it holds, holds of every
entry. -/
@[elab_as_elim]
theorem entries_induction {motive : (e : Entry α) → e ∈ t.entries → Prop}
    (root : motive t.root root_mem)
    (child : ∀ q (hq : q ∈ t.entries), motive q hq →
      ∀ c (hc : c ∈ t.childrenOf q), motive c (mem_of_mem_childrenOf hq hc))
    {e : Entry α} (he : e ∈ t.entries) : motive e he := by
  obtain ⟨s, -, h⟩ := t.nested
  obtain ⟨parent, c, hc, rfl⟩ := (mem_entries_iff h).1 he
  induction hc with
  | top =>
    have hroot := root_eq h
    simp only [← hroot]
    exact root
  | @child parent folder c hfolder hc ih =>
    have hq := entry_mem h hfolder
    exact child _ hq (ih hq) _ (entry_mem_childrenOf h hfolder hc)

/-! ## Positions -/

def position (t : Tree α) (id : EntryId) : Nat :=
  t.ids.idxOf id

theorem position_lt_size {e : Entry α} (he : e ∈ t.entries) : t.position e.id < t.size := by
  have hmem : e.id ∈ t.ids := List.mem_map_of_mem he
  have hlt := List.idxOf_lt_length_of_mem hmem
  rwa [Table.ids, List.length_map] at hlt

theorem position_lt {q c : Entry α} (hq : q ∈ t.entries) (hc : c ∈ t.childrenOf q) :
    t.position q.id < t.position c.id := by
  obtain ⟨s, -, h⟩ := t.nested
  obtain ⟨parent, folder, hfolder, rfl⟩ := (mem_entries_iff h).1 hq
  rw [childrenOf_entry h hfolder] at hc
  obtain ⟨d, hd, rfl⟩ := List.mem_map.1 hc
  have hmem : folder ∈ s.met := s.met_perm.mem_iff.2 (Snapshot.mem_parts_iff.2 ⟨parent, hfolder⟩)
  have hids : t.ids = s.met.map Snapshot.id := by
    rw [← Snapshot.entries_ids, h]
    rfl
  rw [position, position, hids, Snapshot.entry_id, Snapshot.entry_id]
  exact Snapshot.idxOf_lt_of_childrenLater s.childrenLater_met (nodup_met h) hmem hd

/-- What holds of an entry once it holds of its children holds of every entry. -/
@[elab_as_elim]
theorem children_induction {motive : (e : Entry α) → e ∈ t.entries → Prop}
    (step : ∀ e (he : e ∈ t.entries),
      (∀ c (hc : c ∈ t.childrenOf e), motive c (mem_of_mem_childrenOf he hc)) → motive e he)
    {e : Entry α} (he : e ∈ t.entries) : motive e he := by
  generalize hn : t.size - t.position e.id = n
  induction n using Nat.strongRecOn generalizing e with
  | ind n ih =>
    apply step e he
    intro c hc
    have hlt := position_lt he hc
    have hsize := position_lt_size (mem_of_mem_childrenOf he hc)
    exact ih _ (by omega) (mem_of_mem_childrenOf he hc) rfl

end Tree

end TreeBrowser
