import TreeBrowser.Proofs.Tree.Family
import TreeBrowser.Tree.Nest

/-!
# Snapshots and their trees

A snapshot becomes a tree exactly when its top is a folder and no id is in it twice, and then the
tree holds the snapshot and nothing else: nesting it gives the snapshot back.
-/

namespace TreeBrowser

variable {α : Type}

/-- `id` comes a second time in `ids`, and no id does before it. -/
def IsFirstRepeat (id : EntryId) (ids : List EntryId) : Prop :=
  ∃ before after, ids = before ++ id :: after ∧ before.Nodup ∧ id ∈ before

theorem firstRepeat?_eq_some_iff {seen ids : List EntryId} {id : EntryId} :
    firstRepeat? seen ids = some id ↔
      ∃ before after, ids = before ++ id :: after ∧ before.Nodup ∧
        (∀ x ∈ before, x ∉ seen) ∧ (id ∈ before ∨ id ∈ seen) := by
  constructor
  · intro h
    induction ids generalizing seen with
    | nil => cases h
    | cons x rest ih =>
      rw [firstRepeat?] at h
      split at h
      · rename_i hx
        cases h
        exact ⟨[], rest, rfl, List.nodup_nil, by simp, Or.inr hx⟩
      · rename_i hx
        obtain ⟨before, after, rfl, hnodup, hnew, hid⟩ := ih h
        simp only [List.mem_cons, not_or] at hnew hid
        refine ⟨x :: before, after, rfl, ?_, ?_, ?_⟩
        · exact List.nodup_cons.2 ⟨fun hmem => (hnew x hmem).1 rfl, hnodup⟩
        · intro y hy
          rcases List.mem_cons.1 hy with rfl | hy
          · exact hx
          · exact (hnew y hy).2
        · rw [List.mem_cons]
          tauto
  · rintro ⟨before, after, rfl, hnodup, hnew, hid⟩
    have hnone : firstRepeat? seen before = none := firstRepeat?_eq_none_iff.2 ⟨hnodup, hnew⟩
    have hmem : id ∈ seen ++ before := by
      rw [List.mem_append]
      exact hid.symm
    rw [firstRepeat?_append, hnone, Option.none_or, firstRepeat?, if_pos hmem]

theorem firstRepeat?_nil_eq_some_iff {ids : List EntryId} {id : EntryId} :
    firstRepeat? [] ids = some id ↔ IsFirstRepeat id ids := by
  rw [firstRepeat?_eq_some_iff]
  simp [IsFirstRepeat]

/-! ## Nesting -/

theorem Snapshot.nest_entry {done : List (Snapshot α)} (hnodup : (done.map Snapshot.id).Nodup)
    {s : Snapshot α} (hs : ∀ c ∈ s.children, c ∈ done) (parent : Option EntryId) :
    (s.entry parent).nest done = s := by
  cases s with
  | node id name data children =>
    have hfind : (children.map Snapshot.id).filterMap (fun id => done.find? fun s => s.id == id) =
        children := by
      rw [List.filterMap_map]
      calc children.filterMap (fun c => done.find? fun s => s.id == c.id)
          = children.filterMap some := by
            apply List.filterMap_congr
            intro c hc
            exact find?_eq_some_of_nodup hnodup (hs c hc)
        _ = children := List.filterMap_some
    simp only [Snapshot.entry, Entry.nest, hfind]
  | leaf => rfl

theorem nestAll_placed {l : List (EntryId × Snapshot α)}
    (hlater : Snapshot.ChildrenLater (l.map Prod.snd))
    (hnodup : ((l.map Prod.snd).map Snapshot.id).Nodup) :
    nestAll (l.map Snapshot.placedEntry) = l.map Prod.snd := by
  induction l with
  | nil => rfl
  | cons place rest ih =>
    simp only [List.map_cons, List.nodup_cons] at hnodup
    have hrest := ih hlater.2 hnodup.2
    rw [List.map_cons, nestAll, hrest, List.map_cons]
    congr 1
    exact Snapshot.nest_entry hnodup.2 hlater.1 (some place.1)

namespace Tree

theorem toSnapshot_eq {t : Tree α} {s : Snapshot α} (h : s.entries = t.entries) :
    t.toSnapshot = s := by
  have hnodup := nodup_met h
  rw [Snapshot.met_eq, List.map_cons, List.nodup_cons] at hnodup
  obtain ⟨hroot, hothers⟩ := List.cons.inj h
  have hlater := s.childrenLater_met
  rw [Snapshot.met_eq] at hlater
  rw [toSnapshot, ← hroot, ← hothers, nestAll_placed hlater.2 hnodup.2]
  exact Snapshot.nest_entry hnodup.2 hlater.1 none

/-! ## Building -/

/-- The three ways in which a building can end. -/
theorem ofSnapshot_outcome (s : Snapshot α) :
    (s.isNode = false ∧ ofSnapshot s = .error (.rootNotNode s.id)) ∨
    (∃ id, s.isNode = true ∧ firstRepeat? [] (s.met.map Snapshot.id) = some id ∧
      ofSnapshot s = .error (.duplicateId id)) ∨
    (∃ t, s.isNode = true ∧ firstRepeat? [] (s.met.map Snapshot.id) = none ∧
      ofSnapshot s = .ok t ∧ s.entries = t.entries) := by
  have hbuild := Table.build_top s
  rw [Snapshot.entries_ids] at hbuild
  rw [ofSnapshot]
  by_cases hs : s.isNode = true
  · rw [dif_pos hs]
    cases hrepeat : firstRepeat? [] (s.met.map Snapshot.id) with
    | some id =>
      rw [hrepeat] at hbuild
      refine Or.inr (Or.inl ⟨id, hs, rfl, ?_⟩)
      split
      · rename_i e he
        rw [hbuild] at he
        cases he
        rfl
      · rename_i t ht
        rw [hbuild] at ht
        cases ht
    | none =>
      rw [hrepeat] at hbuild
      refine Or.inr (Or.inr ?_)
      split
      · rename_i e he
        rw [hbuild] at he
        cases he
      · rename_i t ht
        exact ⟨_, hs, rfl, rfl, (Table.build_top_eq_ok ht).1⟩
  · rw [dif_neg hs]
    exact Or.inl ⟨by simpa using hs, rfl⟩

theorem eq_of_entries_eq {t t' : Tree α} (h : t.entries = t'.entries) : t = t' := by
  obtain ⟨⟨root, others⟩, _, _⟩ := t
  obtain ⟨⟨root', others'⟩, _, _⟩ := t'
  obtain ⟨hroot, hothers⟩ := List.cons.inj h
  subst hroot hothers
  rfl

theorem ofSnapshot_eq_rootNotNode_iff {s : Snapshot α} {id : EntryId} :
    ofSnapshot s = .error (.rootNotNode id) ↔ s.isNode = false ∧ id = s.id := by
  rcases ofSnapshot_outcome s with ⟨hs, h⟩ | ⟨id', hs, -, h⟩ | ⟨t, hs, -, h, -⟩
  · simp [h, hs, eq_comm]
  · simp [h, hs]
  · simp [h, hs]

theorem ofSnapshot_eq_duplicateId_iff {s : Snapshot α} {id : EntryId} :
    ofSnapshot s = .error (.duplicateId id) ↔
      s.isNode = true ∧ IsFirstRepeat id (s.met.map Snapshot.id) := by
  rw [← firstRepeat?_nil_eq_some_iff]
  rcases ofSnapshot_outcome s with ⟨hs, h⟩ | ⟨id', hs, hrepeat, h⟩ | ⟨t, hs, hrepeat, h, -⟩
  · simp [h, hs]
  · simp [h, hs, hrepeat]
  · simp [h, hs, hrepeat]

theorem ofSnapshot_eq_ok_iff {s : Snapshot α} {t : Tree α} :
    ofSnapshot s = .ok t ↔ s.isNode = true ∧ s.entries = t.entries := by
  rcases ofSnapshot_outcome s with ⟨hs, h⟩ | ⟨id, hs, hrepeat, h⟩ | ⟨t', hs, -, h, hentries⟩
  · simp [h, hs]
  · rw [h]
    refine ⟨nofun, fun hentries => ?_⟩
    have hnone : firstRepeat? [] (s.met.map Snapshot.id) = none :=
      firstRepeat?_eq_none_iff.2 ⟨nodup_met hentries.2, by simp⟩
    rw [hrepeat] at hnone
    cases hnone
  · rw [h, hentries]
    refine ⟨fun heq => ?_, fun heq => ?_⟩
    · cases heq
      exact ⟨hs, rfl⟩
    · rw [eq_of_entries_eq heq.2]

theorem exists_ofSnapshot_iff {s : Snapshot α} :
    (∃ t, ofSnapshot s = .ok t) ↔ s.isNode = true ∧ s.ids.Nodup := by
  have hnodup : firstRepeat? [] (s.met.map Snapshot.id) = none ↔ s.ids.Nodup := by
    rw [firstRepeat?_eq_none_iff, (s.met_perm.map Snapshot.id).nodup_iff]
    simp [Snapshot.ids]
  rw [← hnodup]
  rcases ofSnapshot_outcome s with ⟨hs, h⟩ | ⟨id, hs, hrepeat, h⟩ | ⟨t, hs, hrepeat, h, -⟩
  · simp [h, hs]
  · simp [h, hrepeat]
  · simp [h, hs, hrepeat]

theorem ofSnapshot_toSnapshot (t : Tree α) : ofSnapshot t.toSnapshot = .ok t := by
  obtain ⟨s, hs, hentries⟩ := t.nested
  rw [toSnapshot_eq hentries]
  exact ofSnapshot_eq_ok_iff.2 ⟨hs, hentries⟩

theorem size_eq {t : Tree α} {s : Snapshot α} (h : s.entries = t.entries) : t.size = s.size := by
  have hlength := congrArg List.length (s.entries_ids.symm.trans (congrArg (List.map Entry.id) h))
  rw [List.length_map, List.length_map, s.met_perm.length_eq, s.length_parts] at hlength
  exact hlength.symm

/-- A snapshot is a tree exactly when its top is a folder and no id is in it twice. The tree then
nests to the snapshot, has as many entries, and finds by its id each part and nothing else. A
snapshot that is no tree is refused for its top, or else for the first id that is met twice. -/
theorem ofSnapshot_exact (s : Snapshot α) :
    ((∃ t, ofSnapshot s = .ok t) ↔ s.isNode = true ∧ s.ids.Nodup) ∧
    (∀ t, ofSnapshot s = .ok t →
      t.toSnapshot = s ∧ t.size = s.size ∧
      ∀ id e, t.get? id = some e ↔
        e.id = id ∧ ∃ parent c, s.Occurs parent c ∧ e = c.entry parent) ∧
    (∀ id, ofSnapshot s = .error (.rootNotNode id) ↔ s.isNode = false ∧ id = s.id) ∧
    (∀ id, ofSnapshot s = .error (.duplicateId id) ↔
      s.isNode = true ∧ IsFirstRepeat id (s.met.map Snapshot.id)) := by
  refine ⟨exists_ofSnapshot_iff, ?_, fun id => ofSnapshot_eq_rootNotNode_iff,
    fun id => ofSnapshot_eq_duplicateId_iff⟩
  intro t ht
  obtain ⟨-, hentries⟩ := ofSnapshot_eq_ok_iff.1 ht
  refine ⟨toSnapshot_eq hentries, size_eq hentries, fun id e => ?_⟩
  rw [get?_eq_some_iff, ← hentries, Snapshot.mem_entries_iff]
  exact and_comm

/-- Two folders that share the id of a file, one of which also holds the id of the other. -/
def clashing : Snapshot Unit :=
  .node "root" "Root" () [.node "a" "A" () [.leaf "x" "X" () false],
    .node "b" "B" () [.leaf "x" "X" () true, .leaf "a" "A" () false]]

def threeDeep : Snapshot Unit :=
  .node "root" "Root" () [.node "a" "A" () [.node "b" "B" () [.leaf "x" "X" () true]],
    .leaf "c" "C" () false]

def threeDeepTree : Tree Unit where
  root := threeDeep.entry none
  others := threeDeep.placed.map Snapshot.placedEntry
  nested := ⟨threeDeep, rfl, rfl⟩
  nodup := by decide

theorem ofSnapshot_exact_threeDeep :
    (∃ t, ofSnapshot threeDeep = .ok t ∧ t.toSnapshot = threeDeep ∧ t.size = 5) ∧
      ofSnapshot clashing = .error (.duplicateId "a") := by
  have hids : clashing.met.map Snapshot.id = ["root", "a", "b", "x", "a", "x"] := by
    rw [Snapshot.met_eq]
    rfl
  constructor
  · obtain ⟨t, ht⟩ := (ofSnapshot_exact threeDeep).1.2 ⟨rfl, by decide⟩
    obtain ⟨hnest, hsize, -⟩ := (ofSnapshot_exact threeDeep).2.1 t ht
    exact ⟨t, ht, hnest, hsize⟩
  · refine ((ofSnapshot_exact clashing).2.2.2 "a").2
      ⟨rfl, ["root", "a", "b", "x"], ["x"], hids, ?_, ?_⟩
    · decide
    · decide

end Tree

end TreeBrowser
