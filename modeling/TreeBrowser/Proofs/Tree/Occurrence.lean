import Mathlib.Data.List.Perm.Basic
import Mathlib.Data.List.Nodup
import TreeBrowser.Tree.BuildResult

/-!
# The parts of a snapshot

What a snapshot holds, said without the table: the list of its parts, a folder before what is in it,
and the relation of a part to the folder that it is in. The order in which a table is built is a
permutation of the parts in which every folder stands before its children.
-/

open scoped List

namespace TreeBrowser.Snapshot

variable {α : Type}

@[elab_as_elim]
theorem nestedInduction {motive : Snapshot α → Prop}
    (node : ∀ id name data children, (∀ c ∈ children, motive c) →
      motive (.node id name data children))
    (leaf : ∀ id name data expandable, motive (.leaf id name data expandable))
    (s : Snapshot α) : motive s :=
  Snapshot.rec (motive_2 := fun children => ∀ c ∈ children, motive c) node leaf
    (fun _ hc => absurd hc List.not_mem_nil)
    (fun s rest hs hrest c hc => by
      rcases List.mem_cons.1 hc with rfl | hc
      · exact hs
      · exact hrest c hc)
    s

mutual

def parts : Snapshot α → List (Snapshot α)
  | .node id name data children => .node id name data children :: partsAll children
  | .leaf id name data expandable => [.leaf id name data expandable]

def partsAll : List (Snapshot α) → List (Snapshot α)
  | [] => []
  | s :: rest => parts s ++ partsAll rest

end

def ids (s : Snapshot α) : List EntryId :=
  s.parts.map id

theorem partsAll_eq_flatMap (children : List (Snapshot α)) :
    partsAll children = children.flatMap parts := by
  induction children with
  | nil => rfl
  | cons s rest ih => rw [partsAll, ih, List.flatMap_cons]

theorem parts_eq (s : Snapshot α) : s.parts = s :: s.children.flatMap parts := by
  cases s with
  | node => rw [parts, partsAll_eq_flatMap, children]
  | leaf => rfl

theorem self_mem_parts (s : Snapshot α) : s ∈ s.parts := by
  rw [parts_eq]
  exact List.mem_cons_self

theorem ids_eq (s : Snapshot α) : s.ids = s.id :: s.children.flatMap ids := by
  rw [ids, parts_eq, List.map_cons, List.map_flatMap]
  rfl

theorem length_flatMap_parts {children : List (Snapshot α)}
    (h : ∀ c ∈ children, c.parts.length = c.size) :
    (children.flatMap parts).length = sizeAll children := by
  induction children with
  | nil => rfl
  | cons c rest ih =>
    rw [List.forall_mem_cons] at h
    rw [List.flatMap_cons, List.length_append, sizeAll, h.1, ih h.2]

theorem length_parts (s : Snapshot α) : s.parts.length = s.size := by
  induction s using nestedInduction with
  | node id name data children ih =>
    rw [parts, partsAll_eq_flatMap, size, List.length_cons, length_flatMap_parts ih]
  | leaf => rfl

/-- The order of the table is a permutation of the parts below the top. -/
theorem placed_perm (s : Snapshot α) :
    (s.placed.map Prod.snd).Perm (s.children.flatMap parts) := by
  induction s using nestedInduction with
  | node id name data children ih =>
    have hbelow : ((placedLast children).map Prod.snd).Perm
        (children.flatMap fun c => c.placed.map Prod.snd) := by
      rw [placedLast_eq_flatMap, List.map_flatMap]
      exact (List.reverse_perm children).flatMap_right _
    have hparts : (children.flatMap fun c => c :: c.placed.map Prod.snd).Perm
        (children.flatMap parts) := by
      apply List.Perm.flatMap_left
      intro c hc
      rw [parts_eq]
      exact (ih c hc).cons c
    calc ((node id name data children).placed.map Prod.snd)
        = children.map (fun c => c) ++ (placedLast children).map Prod.snd := by
          simp [placed, Function.comp_def]
      _ ~ children.map (fun c => c) ++ children.flatMap fun c => c.placed.map Prod.snd :=
          hbelow.append_left _
      _ ~ children.flatMap fun c => c :: c.placed.map Prod.snd :=
          List.map_append_flatMap_perm children (fun c => c) _
      _ ~ children.flatMap parts := hparts
  | leaf => exact List.Perm.refl _

theorem entries_ids_perm (s : Snapshot α) : (s.entries.map Entry.id).Perm s.ids := by
  have hentries : s.entries.map Entry.id = s.id :: (s.placed.map Prod.snd).map id := by
    simp [entries, Function.comp_def, placedEntry, entry_id]
  rw [hentries, ids, parts_eq, List.map_cons]
  exact ((placed_perm s).map id).cons s.id

/-! ## Where a part is -/

/-- `s.Occurs parent c`: the part `c` of `s` is in the folder `parent`, or is `s` itself. -/
inductive Occurs (s : Snapshot α) : Option EntryId → Snapshot α → Prop
  | top : s.Occurs none s
  | child {parent : Option EntryId} {folder c : Snapshot α} :
      s.Occurs parent folder → c ∈ folder.children → s.Occurs (some folder.id) c

/-- A part of a part is a part. -/
theorem Occurs.inside {s c : Snapshot α} {parent : Option EntryId} (hc : s.Occurs parent c)
    {p : EntryId} {d : Snapshot α} (hd : c.Occurs (some p) d) : s.Occurs (some p) d := by
  generalize hq : some p = q at hd
  induction hd generalizing p with
  | top => cases hq
  | @child parent' folder d hfolder hd ih =>
    cases parent' with
    | none =>
      cases hfolder
      exact hc.child hd
    | some p' => exact (ih rfl).child hd

theorem ids_sublist_of_mem_children {s c : Snapshot α} (hc : c ∈ s.children) :
    c.ids <+ s.ids := by
  rw [ids_eq s, List.flatMap_def]
  exact (List.sublist_flatten_of_mem (List.mem_map_of_mem hc)).cons _

theorem Occurs.ids_sublist {s c : Snapshot α} {parent : Option EntryId} (h : s.Occurs parent c) :
    c.ids <+ s.ids := by
  induction h with
  | top => exact List.Sublist.refl _
  | child _ hc ih => exact (ids_sublist_of_mem_children hc).trans ih

theorem children_nodup {s : Snapshot α} (h : s.ids.Nodup) : (s.children.map id).Nodup := by
  rw [ids_eq, List.nodup_cons] at h
  refine List.Sublist.nodup ?_ h.2
  induction s.children with
  | nil => exact List.Sublist.refl _
  | cons c rest ih =>
    rw [List.map_cons, List.flatMap_cons, ids_eq c, List.cons_append]
    exact (ih.trans (List.sublist_append_right _ _)).cons_cons _

theorem mem_placed_child {s : Snapshot α} {c : Snapshot α} (hc : c ∈ s.children)
    {place : EntryId × Snapshot α} (hplace : place ∈ c.placed) : place ∈ s.placed := by
  rw [placed_eq s, placedLast_eq_flatMap]
  apply List.mem_append_right
  exact List.mem_flatMap.2 ⟨c, List.mem_reverse.2 hc, hplace⟩

theorem mem_placed_of_mem_children {s c : Snapshot α} (hc : c ∈ s.children) :
    (s.id, c) ∈ s.placed := by
  rw [placed_eq s]
  exact List.mem_append_left _ (List.mem_map_of_mem hc)

theorem mem_placed_of_mem_placed (s : Snapshot α) {p : EntryId} {folder c : Snapshot α}
    (hfolder : (p, folder) ∈ s.placed) (hc : c ∈ folder.children) :
    (folder.id, c) ∈ s.placed := by
  induction s using nestedInduction with
  | node id name data children ih =>
    rw [placed_eq, placedLast_eq_flatMap, List.mem_append, List.mem_map,
      List.mem_flatMap] at hfolder
    rcases hfolder with ⟨d, hd, heq⟩ | ⟨d, hd, hplace⟩
    · cases heq
      exact mem_placed_child hd (mem_placed_of_mem_children hc)
    · rw [List.mem_reverse] at hd
      exact mem_placed_child hd (ih d hd hplace)
  | leaf => cases hfolder

theorem mem_placed_iff {s : Snapshot α} {p : EntryId} {c : Snapshot α} :
    (p, c) ∈ s.placed ↔ s.Occurs (some p) c := by
  constructor
  · intro h
    induction s using nestedInduction with
    | node id name data children ih =>
      rw [placed_eq, placedLast_eq_flatMap, List.mem_append, List.mem_map, List.mem_flatMap] at h
      rcases h with ⟨d, hd, heq⟩ | ⟨d, hd, hplace⟩
      · cases heq
        exact Occurs.top.child hd
      · rw [List.mem_reverse] at hd
        exact (Occurs.top.child hd).inside (ih d hd hplace)
    | leaf => cases h
  · intro h
    generalize hq : some p = q at h
    induction h generalizing p with
    | top => cases hq
    | @child parent folder c hfolder hc ih =>
      cases hq
      cases parent with
      | none =>
        cases hfolder
        exact mem_placed_of_mem_children hc
      | some p' => exact mem_placed_of_mem_placed s (ih rfl) hc

/-- A part is the whole, or it is listed with the folder that it is in. -/
theorem occurs_cases {s c : Snapshot α} {parent : Option EntryId} (h : s.Occurs parent c) :
    parent = none ∧ c = s ∨ ∃ p, parent = some p ∧ (p, c) ∈ s.placed := by
  cases parent with
  | none =>
    cases h
    exact Or.inl ⟨rfl, rfl⟩
  | some p => exact Or.inr ⟨p, rfl, mem_placed_iff.2 h⟩

theorem mem_entries_iff {s : Snapshot α} {e : Entry α} :
    e ∈ s.entries ↔ ∃ parent c, s.Occurs parent c ∧ e = c.entry parent := by
  rw [entries, List.mem_cons, List.mem_map]
  constructor
  · rintro (rfl | ⟨⟨p, c⟩, hplace, rfl⟩)
    · exact ⟨none, s, Occurs.top, rfl⟩
    · exact ⟨some p, c, mem_placed_iff.1 hplace, rfl⟩
  · rintro ⟨parent, c, hc, rfl⟩
    rcases occurs_cases hc with ⟨rfl, rfl⟩ | ⟨p, rfl, hplace⟩
    · exact Or.inl rfl
    · exact Or.inr ⟨(p, c), hplace, rfl⟩

theorem mem_parts_iff {s c : Snapshot α} : c ∈ s.parts ↔ ∃ parent, s.Occurs parent c := by
  have hmem : c ∈ s.parts ↔ c = s ∨ c ∈ s.placed.map Prod.snd := by
    rw [parts_eq, List.mem_cons, (placed_perm s).mem_iff]
  rw [hmem, List.mem_map]
  constructor
  · rintro (rfl | ⟨⟨p, c⟩, hplace, rfl⟩)
    · exact ⟨none, Occurs.top⟩
    · exact ⟨some p, mem_placed_iff.1 hplace⟩
  · rintro ⟨parent, hc⟩
    rcases occurs_cases hc with ⟨rfl, rfl⟩ | ⟨p, rfl, hplace⟩
    · exact Or.inl rfl
    · exact Or.inr ⟨(p, c), hplace, rfl⟩

theorem exists_occurs_of_mem_below {s c : Snapshot α} (hc : c ∈ s.children.flatMap parts) :
    ∃ p, s.Occurs (some p) c := by
  rw [← (placed_perm s).mem_iff] at hc
  obtain ⟨⟨p, c⟩, hplace, rfl⟩ := List.mem_map.1 hc
  exact ⟨p, mem_placed_iff.1 hplace⟩

end TreeBrowser.Snapshot
