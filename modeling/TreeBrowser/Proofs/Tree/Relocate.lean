import TreeBrowser.Proofs.Tree.RoundTrip

/-!
# Moving parts of a snapshot

Some parts of a snapshot are taken out with all that is in them, and put back, as they are, at the
end of one folder. When no part that is moved is in another one and the folder is in none of them,
this loses nothing and holds nothing twice.
-/

open scoped List

namespace TreeBrowser

variable {α : Type}

namespace Snapshot

def part? (s : Snapshot α) (id : EntryId) : Option (Snapshot α) :=
  s.parts.find? fun c => c.id == id

def picked (ids : List EntryId) (s : Snapshot α) : List (Snapshot α) :=
  ids.filterMap s.part?

def isAmong (ids : List EntryId) (s : Snapshot α) : Bool :=
  ids.contains s.id

theorem isAmong_iff {ids : List EntryId} {s : Snapshot α} :
    s.isAmong ids = true ↔ s.id ∈ ids :=
  List.contains_iff_mem

mutual

/-- A snapshot without the parts of the given ids and all that is in them. Its top stays. -/
def prune (ids : List EntryId) : Snapshot α → Snapshot α
  | .node id name data children => .node id name data (pruneAll ids children)
  | .leaf id name data expandable => .leaf id name data expandable

def pruneAll (ids : List EntryId) : List (Snapshot α) → List (Snapshot α)
  | [] => []
  | s :: rest => if s.isAmong ids then pruneAll ids rest else prune ids s :: pruneAll ids rest

end

mutual

/-- A snapshot with `moved` after the children of the folder `target`. -/
def graft (target : EntryId) (moved : List (Snapshot α)) : Snapshot α → Snapshot α
  | .node id name data children =>
    .node id name data (graftAll target moved children ++ if id = target then moved else [])
  | .leaf id name data expandable => .leaf id name data expandable

def graftAll (target : EntryId) (moved : List (Snapshot α)) : List (Snapshot α) → List (Snapshot α)
  | [] => []
  | s :: rest => graft target moved s :: graftAll target moved rest

end

/-- A snapshot after the parts of the given ids have moved into the folder `target`. -/
def relocate (ids : List EntryId) (target : EntryId) (s : Snapshot α) : Snapshot α :=
  (s.prune ids).graft target (s.picked ids)

/-- What a snapshot holds, wherever in it: its entries without parents and children. -/
def contents (s : Snapshot α) : List (Entry α) :=
  s.parts.map (bareEntry none)

theorem contents_eq (s : Snapshot α) :
    s.contents = s.bareEntry none :: s.children.flatMap contents := by
  rw [contents, parts_eq, List.map_cons, List.map_flatMap]
  rfl

theorem contents_ids (s : Snapshot α) : s.contents.map Entry.id = s.ids := by
  rw [contents, ids, List.map_map]
  exact List.map_congr_left fun c _ => bareEntry_id none c

theorem flatMap_contents_ids (l : List (Snapshot α)) :
    (l.flatMap contents).map Entry.id = l.flatMap ids := by
  rw [List.map_flatMap]
  exact List.flatMap_congr fun c _ => c.contents_ids

/-! ## Pruning -/

theorem bareEntry_prune (ids : List EntryId) (s : Snapshot α) (parent : Option EntryId) :
    (s.prune ids).bareEntry parent = s.bareEntry parent := by
  cases s <;> rfl

theorem pruneAll_eq (ids : List EntryId) (children : List (Snapshot α)) :
    pruneAll ids children =
      children.flatMap fun c => if c.isAmong ids then [] else [c.prune ids] := by
  induction children with
  | nil => rfl
  | cons c rest ih =>
    rw [pruneAll, List.flatMap_cons, ih]
    split
    · rw [List.nil_append]
    · rfl

theorem children_prune (ids : List EntryId) (s : Snapshot α) :
    (s.prune ids).children =
      s.children.flatMap fun c => if c.isAmong ids then [] else [c.prune ids] := by
  cases s with
  | node => exact pruneAll_eq ids _
  | leaf => rfl

theorem contents_prune (ids : List EntryId) (s : Snapshot α) :
    (s.prune ids).contents = s.bareEntry none ::
      s.children.flatMap fun c => if c.isAmong ids then [] else (c.prune ids).contents := by
  rw [contents_eq, bareEntry_prune, children_prune, List.flatMap_assoc]
  congr 1
  apply List.flatMap_congr
  intro c _
  split
  · rfl
  · exact List.flatMap_singleton _ _

def Apart (ids : List EntryId) (s : Snapshot α) : Prop :=
  ∀ c ∈ s.parts, c.id ∈ ids → ∀ d ∈ c.children.flatMap parts, d.id ∉ ids

theorem parts_subset_of_mem_children {s c : Snapshot α} (hc : c ∈ s.children) :
    c.parts ⊆ s.parts := by
  intro d hd
  rw [parts_eq s]
  exact List.mem_cons_of_mem _ (List.mem_flatMap.2 ⟨c, hc, hd⟩)

theorem Apart.of_mem_children {ids : List EntryId} {s c : Snapshot α} (h : s.Apart ids)
    (hc : c ∈ s.children) : c.Apart ids :=
  fun d hd => h d (parts_subset_of_mem_children hc hd)

/-- Of a part with one of the ids, nothing but its top has one. -/
theorem Apart.filter_parts {ids : List EntryId} {s c : Snapshot α} (h : s.Apart ids)
    (hc : c ∈ s.parts) (hid : c.id ∈ ids) : c.parts.filter (isAmong ids) = [c] := by
  have hbelow : (c.children.flatMap parts).filter (isAmong ids) = [] := by
    rw [List.filter_eq_nil_iff]
    intro d hd hamong
    exact h c hc hid d hd (isAmong_iff.1 hamong)
  rw [parts_eq, List.filter_cons_of_pos (isAmong_iff.2 hid), hbelow]

/-- What pruning takes out of a snapshot is in the parts with the ids. -/
theorem contents_perm_prune {ids : List EntryId} {s : Snapshot α} (hs : s.id ∉ ids)
    (happart : s.Apart ids) :
    s.contents ~ (s.prune ids).contents ++
      (s.parts.filter (isAmong ids)).flatMap contents := by
  induction s using nestedInduction with
  | leaf id name data expandable =>
    have htop : isAmong ids (.leaf id name data expandable) = false :=
      Bool.eq_false_iff.2 fun h => hs (isAmong_iff.1 h)
    simp [parts, prune, contents, htop]
  | node id name data children ih =>
    have hchild : ∀ c ∈ children, c.contents ~
        (if c.isAmong ids then [] else (c.prune ids).contents) ++
          (c.parts.filter (isAmong ids)).flatMap contents := by
      intro c hc
      by_cases hid : c.id ∈ ids
      · have hmem : c ∈ (node id name data children).parts :=
          parts_subset_of_mem_children (s := .node id name data children) hc c.self_mem_parts
        rw [if_pos (isAmong_iff.2 hid), happart.filter_parts hmem hid, List.nil_append,
          List.flatMap_singleton]
      · have htop : ¬ c.isAmong ids = true := fun h => hid (isAmong_iff.1 h)
        rw [if_neg htop]
        exact ih c hc hid (happart.of_mem_children hc)
    have htop : ¬ isAmong ids (.node id name data children) = true := fun h => hs (isAmong_iff.1 h)
    rw [contents_prune, contents_eq, parts_eq, List.filter_cons_of_neg htop, List.filter_flatMap,
      List.flatMap_assoc, List.cons_append]
    apply List.Perm.cons
    exact (List.Perm.flatMap_left _ hchild).trans (List.flatMap_append_perm children _ _).symm

theorem part?_eq_some_iff {s : Snapshot α} (hnodup : s.ids.Nodup) {id : EntryId}
    {c : Snapshot α} : s.part? id = some c ↔ c ∈ s.parts ∧ c.id = id := by
  constructor
  · intro h
    have hid := List.find?_some h
    exact ⟨List.mem_of_find?_eq_some h, beq_iff_eq.1 hid⟩
  · rintro ⟨hc, rfl⟩
    exact find?_eq_some_of_nodup hnodup hc

theorem picked_perm {ids : List EntryId} {s : Snapshot α} (hids : ids.Nodup)
    (hnodup : s.ids.Nodup) :
    s.picked ids ~ s.parts.filter (isAmong ids) := by
  have hpicked : (s.picked ids).Nodup := by
    refine List.Nodup.filterMap (fun id id' c hc hc' => ?_) hids
    rw [← ((part?_eq_some_iff hnodup).1 hc).2, ((part?_eq_some_iff hnodup).1 hc').2]
  rw [List.perm_ext_iff_of_nodup hpicked ((hnodup.of_map _).filter _)]
  intro c
  simp only [picked, List.mem_filterMap, part?_eq_some_iff hnodup, List.mem_filter,
    isAmong_iff]
  constructor
  · rintro ⟨id, hid, hc, rfl⟩
    exact ⟨hc, hid⟩
  · rintro ⟨hc, hid⟩
    exact ⟨c.id, hid, hc, rfl⟩

theorem picked_ids {ids : List EntryId} {s : Snapshot α} (hnodup : s.ids.Nodup)
    (hids : ∀ id ∈ ids, id ∈ s.ids) : (s.picked ids).map id = ids := by
  induction ids with
  | nil => rfl
  | cons id rest ih =>
    rw [List.forall_mem_cons] at hids
    obtain ⟨c, hc, hid⟩ := List.mem_map.1 hids.1
    have hpart : s.part? id = some c := (part?_eq_some_iff hnodup).2 ⟨hc, hid⟩
    rw [picked, List.filterMap_cons_some hpart, List.map_cons, hid]
    exact congrArg (List.cons id) (ih hids.2)

theorem id_prune (ids : List EntryId) (s : Snapshot α) : (s.prune ids).id = s.id := by
  cases s <;> rfl

/-- A part is taken out, by itself or within another one, or stays in its folder. -/
theorem Occurs.prune {s d : Snapshot α} {parent : Option EntryId} (h : s.Occurs parent d)
    (ids : List EntryId) :
    d.id ∈ ids ∨ (∃ c ∈ s.parts, c.id ∈ ids ∧ c.Occurs parent d) ∨
      (s.prune ids).Occurs parent (d.prune ids) := by
  induction h with
  | top => exact Or.inr (Or.inr Occurs.top)
  | @child parent folder d hfolder hd ih =>
    rcases ih with hid | ⟨c, hc, hid, hinside⟩ | hstays
    · exact Or.inr (Or.inl ⟨folder, mem_parts_iff.2 ⟨parent, hfolder⟩, hid, Occurs.top.child hd⟩)
    · exact Or.inr (Or.inl ⟨c, hc, hid, hinside.child hd⟩)
    · by_cases hid : d.id ∈ ids
      · exact Or.inl hid
      · have hchild : d.prune ids ∈ (folder.prune ids).children := by
          rw [children_prune, List.mem_flatMap]
          refine ⟨d, hd, ?_⟩
          rw [if_neg fun h => hid (isAmong_iff.1 h)]
          exact List.mem_singleton_self _
        rw [← id_prune ids folder]
        exact Or.inr (Or.inr (hstays.child hchild))

/-! ## Grafting -/

theorem bareEntry_graft (target : EntryId) (moved : List (Snapshot α)) (s : Snapshot α)
    (parent : Option EntryId) : (s.graft target moved).bareEntry parent = s.bareEntry parent := by
  cases s <;> rfl

def isFolder (target : EntryId) (e : Entry α) : Bool :=
  e.isNode && e.id == target

theorem graftAll_eq (target : EntryId) (moved children : List (Snapshot α)) :
    graftAll target moved children = children.map (graft target moved) := by
  induction children with
  | nil => rfl
  | cons c rest ih => rw [graftAll, ih, List.map_cons]

theorem children_graft (target : EntryId) (moved : List (Snapshot α)) (s : Snapshot α) :
    (s.graft target moved).children = s.children.map (graft target moved) ++
      if isFolder target (s.bareEntry none) then moved else [] := by
  cases s with
  | node id name data children =>
    simp [graft, Snapshot.children, graftAll_eq, isFolder, bareEntry, Entry.isNode]
  | leaf => rfl

/-- Grafting puts in what is moved once for each folder `target`. -/
theorem contents_graft_perm (target : EntryId) (moved : List (Snapshot α)) (s : Snapshot α) :
    (s.graft target moved).contents ~ s.contents ++
      (s.contents.filter (isFolder target)).flatMap fun _ => moved.flatMap contents := by
  induction s using nestedInduction with
  | leaf id name data expandable => exact List.Perm.refl _
  | node id name data children ih =>
    generalize hs : Snapshot.node id name data children = s
    have hchildren : s.children = children := by rw [← hs]; rfl
    have hbelow : (children.map (graft target moved)).flatMap contents ~
        children.flatMap contents ++ ((children.flatMap contents).filter (isFolder target)).flatMap
          fun _ => moved.flatMap contents := by
      rw [List.flatMap_map, List.filter_flatMap, List.flatMap_assoc]
      exact (List.Perm.flatMap_left _ ih).trans (List.flatMap_append_perm children _ _).symm
    rw [contents_eq, bareEntry_graft, children_graft, contents_eq s, hchildren, List.flatMap_append,
      List.cons_append]
    apply List.Perm.cons
    by_cases htop : isFolder target (s.bareEntry none) = true
    · rw [if_pos htop, List.filter_cons_of_pos htop, List.flatMap_cons]
      calc (children.map (graft target moved)).flatMap contents ++ moved.flatMap contents
          ~ (children.flatMap contents ++
              ((children.flatMap contents).filter (isFolder target)).flatMap
                fun _ => moved.flatMap contents) ++ moved.flatMap contents :=
            hbelow.append_right _
        _ ~ children.flatMap contents ++ (moved.flatMap contents ++
              ((children.flatMap contents).filter (isFolder target)).flatMap
                fun _ => moved.flatMap contents) := by
            rw [List.append_assoc]
            exact List.perm_append_comm.append_left _
    · rw [if_neg htop, List.filter_cons_of_neg htop, List.flatMap_nil, List.append_nil]
      exact hbelow

theorem id_graft (target : EntryId) (moved : List (Snapshot α)) (s : Snapshot α) :
    (s.graft target moved).id = s.id := by
  cases s <;> rfl

theorem Occurs.graft {s c : Snapshot α} {parent : Option EntryId} (h : s.Occurs parent c)
    (target : EntryId) (moved : List (Snapshot α)) :
    (s.graft target moved).Occurs parent (c.graft target moved) := by
  induction h with
  | top => exact Occurs.top
  | @child parent folder c _ hc ih =>
    have hchild : c.graft target moved ∈ (folder.graft target moved).children := by
      rw [children_graft]
      exact List.mem_append_left _ (List.mem_map_of_mem hc)
    rw [← id_graft target moved folder]
    exact ih.child hchild

theorem isNode_bareEntry (parent : Option EntryId) (s : Snapshot α) :
    (s.bareEntry parent).isNode = s.isNode := by
  cases s <;> rfl

theorem isFolder_bareEntry {target : EntryId} {s : Snapshot α} :
    isFolder target (s.bareEntry none) = true ↔ s.id = target ∧ s.isNode = true := by
  rw [isFolder, isNode_bareEntry, bareEntry_id, Bool.and_eq_true, beq_iff_eq]
  exact and_comm

/-! ## Moves that lose nothing -/

/-- The parts with the ids are there, none of them is in another one, and the folder `target` is in
none of them. -/
structure Movable (s : Snapshot α) (ids : List EntryId) (target : EntryId) : Prop where
  nodup : s.ids.Nodup
  distinct : ids.Nodup
  known : ∀ id ∈ ids, id ∈ s.ids
  apart : s.Apart ids
  folder : ∃ c ∈ s.parts, c.id = target ∧ c.isNode = true
  outside : ∀ c ∈ s.parts, c.id ∈ ids → target ∉ c.ids

namespace Movable

variable {s : Snapshot α} {ids : List EntryId} {target : EntryId}

/-- The top does not move, since the target is in it. -/
theorem top_not_mem (h : s.Movable ids target) : s.id ∉ ids := by
  intro hs
  obtain ⟨c, hc, rfl, -⟩ := h.folder
  exact h.outside s s.self_mem_parts hs (List.mem_map_of_mem hc)

theorem isNode (h : s.Movable ids target) : s.isNode = true := by
  obtain ⟨c, hc, -, hnode⟩ := h.folder
  cases s with
  | node => rfl
  | leaf =>
    rw [parts, List.mem_singleton] at hc
    rw [hc] at hnode
    exact hnode

theorem of_mem_picked (h : s.Movable ids target) {c : Snapshot α} (hc : c ∈ s.picked ids) :
    c ∈ s.parts ∧ c.id ∈ ids := by
  have hmem := (picked_perm h.distinct h.nodup).mem_iff.1 hc
  rw [List.mem_filter, isAmong_iff] at hmem
  exact hmem

theorem target_not_mem (h : s.Movable ids target) {c : Snapshot α} (hc : c ∈ s.picked ids) :
    target ∉ c.ids :=
  h.outside c (h.of_mem_picked hc).1 (h.of_mem_picked hc).2

theorem contents_perm (h : s.Movable ids target) :
    s.contents ~ (s.prune ids).contents ++ (s.picked ids).flatMap contents := by
  refine (contents_perm_prune h.top_not_mem h.apart).trans (List.Perm.append_left _ ?_)
  exact (picked_perm h.distinct h.nodup).symm.flatMap_right contents

theorem pairwise_disjoint (h : s.Movable ids target) :
    (s.picked ids).Pairwise fun c d => c.ids.Disjoint d.ids := by
  have hids := h.contents_perm.map Entry.id
  rw [contents_ids, List.map_append, flatMap_contents_ids] at hids
  exact (List.nodup_flatMap.1 (List.nodup_append.1 (hids.nodup_iff.1 h.nodup)).2.1).2

theorem folders_prune (h : s.Movable ids target) :
    ∃ e, (s.prune ids).contents.filter (isFolder target) = [e] := by
  obtain ⟨c, hc, hid, hnode⟩ := h.folder
  have hkeys : (s.contents.map Entry.id).Nodup := by
    rw [contents_ids]
    exact h.nodup
  have hfolders : s.contents.filter (isFolder target) ~ [c.bareEntry none] := by
    rw [List.perm_ext_iff_of_nodup ((hkeys.of_map _).filter _) (List.nodup_singleton _)]
    intro e
    rw [List.mem_filter, List.mem_singleton]
    constructor
    · rintro ⟨he, hfolder⟩
      rw [isFolder, Bool.and_eq_true, beq_iff_eq] at hfolder
      apply List.inj_on_of_nodup_map hkeys he (List.mem_map_of_mem hc)
      rw [hfolder.2, bareEntry_id, hid]
    · rintro rfl
      exact ⟨List.mem_map_of_mem hc, isFolder_bareEntry.2 ⟨hid, hnode⟩⟩
  have hmoved : ((s.picked ids).flatMap contents).filter (isFolder target) = [] := by
    rw [List.filter_eq_nil_iff]
    intro e he hfolder
    obtain ⟨d, hd, he⟩ := List.mem_flatMap.1 he
    rw [isFolder, Bool.and_eq_true, beq_iff_eq] at hfolder
    apply h.target_not_mem hd
    rw [← contents_ids, ← hfolder.2]
    exact List.mem_map_of_mem he
  have hperm := h.contents_perm.filter (isFolder target)
  rw [List.filter_append, hmoved, List.append_nil] at hperm
  exact ⟨c.bareEntry none, (hperm.symm.trans hfolders).eq_singleton⟩

/-- A move keeps all that a snapshot holds. -/
theorem relocate_perm (h : s.Movable ids target) :
    (s.relocate ids target).contents ~ s.contents := by
  obtain ⟨e, he⟩ := h.folders_prune
  have hgraft := contents_graft_perm target (s.picked ids) (s.prune ids)
  rw [he, List.flatMap_singleton] at hgraft
  exact hgraft.trans h.contents_perm.symm

/-- What has moved stands, as it was and in its order, at the end of the target. -/
theorem exists_target (h : s.Movable ids target) :
    ∃ parent folder, (s.relocate ids target).Occurs parent folder ∧
      folder.id = target ∧ s.picked ids <:+ folder.children := by
  obtain ⟨e, he⟩ := h.folders_prune
  have hmem : e ∈ (s.prune ids).contents.filter (isFolder target) := by
    rw [he]
    exact List.mem_singleton_self e
  obtain ⟨he, hfolder⟩ := List.mem_filter.1 hmem
  obtain ⟨d, hd, rfl⟩ := List.mem_map.1 he
  obtain ⟨parent, hoccurs⟩ := mem_parts_iff.1 hd
  refine ⟨parent, d.graft target (s.picked ids), hoccurs.graft target _, ?_, ?_⟩
  · rw [id_graft]
    exact (isFolder_bareEntry.1 hfolder).1
  · rw [children_graft, if_pos hfolder]
    exact List.suffix_append _ _

theorem occurs_moved (h : s.Movable ids target) {c : Snapshot α} (hc : c ∈ s.parts)
    (hid : c.id ∈ ids) : (s.relocate ids target).Occurs (some target) c := by
  obtain ⟨parent, folder, hfolder, rfl, hmoved⟩ := h.exists_target
  have hpicked : c ∈ s.picked ids :=
    (picked_perm h.distinct h.nodup).mem_iff.2 (List.mem_filter.2 ⟨hc, isAmong_iff.2 hid⟩)
  exact hfolder.child (hmoved.subset hpicked)

/-- What has moved is in the target, and all else is in the folder in which it was. -/
theorem occurs_relocate (h : s.Movable ids target) {p : EntryId} {d : Snapshot α}
    (hd : s.Occurs (some p) d) :
    ∃ d', d'.bareEntry none = d.bareEntry none ∧
      (s.relocate ids target).Occurs (some (if d.id ∈ ids then target else p)) d' := by
  by_cases hid : d.id ∈ ids
  · rw [if_pos hid]
    exact ⟨d, rfl, h.occurs_moved (mem_parts_iff.2 ⟨_, hd⟩) hid⟩
  · rw [if_neg hid]
    rcases hd.prune ids with hid' | ⟨c, hc, hcid, hinside⟩ | hstays
    · exact absurd hid' hid
    · exact ⟨d, rfl, (h.occurs_moved hc hcid).inside hinside⟩
    · refine ⟨(d.prune ids).graft target (s.picked ids), ?_, hstays.graft target _⟩
      rw [bareEntry_graft, bareEntry_prune]

end Movable

theorem bareEntry_relocate (ids : List EntryId) (target : EntryId) (s : Snapshot α)
    (parent : Option EntryId) :
    (s.relocate ids target).bareEntry parent = s.bareEntry parent := by
  rw [relocate, bareEntry_graft, bareEntry_prune]

theorem Movable.exists_tree {s : Snapshot α} {ids : List EntryId} {target : EntryId}
    (h : s.Movable ids target) : ∃ t, Tree.ofSnapshot (s.relocate ids target) = .ok t := by
  rw [Tree.exists_ofSnapshot_iff]
  constructor
  · rw [← isNode_bareEntry none, bareEntry_relocate, isNode_bareEntry]
    exact h.isNode
  · rw [← contents_ids, (h.relocate_perm.map Entry.id).nodup_iff, contents_ids]
    exact h.nodup

end Snapshot

/-! ## Trees of the same contents -/

namespace Tree

variable {t : Tree α} {s : Snapshot α}

theorem isNode_iff_mem_contents (h : s.entries = t.entries) {id : EntryId} :
    t.isNode id = true ↔ ∃ e ∈ s.contents, e.id = id ∧ e.isNode = true := by
  rw [isNode_iff]
  constructor
  · rintro ⟨e, he, rfl, hnode⟩
    obtain ⟨parent, c, hc, rfl⟩ := (mem_entries_iff h).1 he
    refine ⟨c.bareEntry none, List.mem_map_of_mem (Snapshot.mem_parts_iff.2 ⟨parent, hc⟩), ?_, ?_⟩
    · rw [Snapshot.bareEntry_id, Snapshot.entry_id]
    · rwa [Snapshot.isNode_bareEntry, ← Snapshot.isNode_entry parent]
  · rintro ⟨e, he, rfl, hnode⟩
    obtain ⟨c, hc, rfl⟩ := List.mem_map.1 he
    obtain ⟨parent, hoccurs⟩ := Snapshot.mem_parts_iff.1 hc
    refine ⟨c.entry parent, entry_mem h hoccurs, ?_, ?_⟩
    · rw [Snapshot.bareEntry_id, Snapshot.entry_id]
    · rwa [Snapshot.isNode_entry, ← Snapshot.isNode_bareEntry none]

theorem contains_of_contents_perm {t' : Tree α} {s' : Snapshot α} (h : s.entries = t.entries)
    (h' : s'.entries = t'.entries) (hperm : s'.contents.Perm s.contents) {id : EntryId}
    (hid : t.contains id = true) : t'.contains id = true := by
  rw [contains_iff_mem_ids h, ← Snapshot.contents_ids] at hid
  rw [contains_iff_mem_ids h', ← Snapshot.contents_ids]
  exact (hperm.map Entry.id).mem_iff.2 hid

theorem isNode_of_contents_perm {t' : Tree α} {s' : Snapshot α} (h : s.entries = t.entries)
    (h' : s'.entries = t'.entries) (hperm : s'.contents.Perm s.contents) {id : EntryId}
    (hid : t.isNode id = true) : t'.isNode id = true := by
  obtain ⟨e, he, hfolder⟩ := (isNode_iff_mem_contents h).1 hid
  exact (isNode_iff_mem_contents h').2 ⟨e, hperm.mem_iff.2 he, hfolder⟩

end Tree

end TreeBrowser
