import TreeBrowser.Proofs.Tree.Family
import TreeBrowser.Tree.Ancestry

/-!
# Ancestors and descendants

The chain of what encloses an entry, unfolded one step at a time: the ancestors of a child are its
folder and the ancestors of the folder. From this the descendant test is compared with the nesting.
-/

namespace TreeBrowser

variable {α : Type}

/-- In a table with the newest entry first, in which no entry is the folder of an older one or of
itself, a lineage goes on with the lineage of the parent. -/
theorem lineageIn_eq {l : List (Entry α)} (hnodup : (l.map Entry.id).Nodup)
    (holder : l.Pairwise fun newer older => older.parent ≠ some newer.id)
    (hself : ∀ e ∈ l, e.parent ≠ some e.id) {e : Entry α} (he : e ∈ l) :
    lineageIn l e.id = e :: e.parent.elim [] (lineageIn l) := by
  induction l with
  | nil => cases he
  | cons a older ih =>
    rw [List.map_cons, List.nodup_cons] at hnodup
    rw [List.pairwise_cons] at holder
    -- a search from an older entry never comes to `a`
    have hskip {id : EntryId} (hne : a.id ≠ id) :
        lineageIn (a :: older) id = lineageIn older id := by
      rw [lineageIn, if_neg hne]
    rcases List.mem_cons.1 he with rfl | he'
    · rw [lineageIn, if_pos rfl]
      cases hparent : e.parent with
      | none => rfl
      | some p =>
        have hne : e.id ≠ p := by
          rintro rfl
          exact hself e he hparent
        rw [Option.elim_some, hskip hne]
    · have hne : a.id ≠ e.id := fun heq => hnodup.1 (heq ▸ List.mem_map_of_mem he')
      rw [hskip hne, ih hnodup.2 holder.2 (fun d hd => hself d (List.mem_cons_of_mem _ hd)) he']
      cases hparent : e.parent with
      | none => rfl
      | some p =>
        have hne' : a.id ≠ p := by
          rintro rfl
          exact holder.1 e he' hparent
        rw [Option.elim_some, Option.elim_some, hskip hne']

theorem lineageIn_eq_nil {l : List (Entry α)} {id : EntryId} (h : id ∉ l.map Entry.id) :
    lineageIn l id = [] := by
  induction l with
  | nil => rfl
  | cons a older ih =>
    simp only [List.map_cons, List.mem_cons, not_or] at h
    rw [lineageIn, if_neg (Ne.symm h.1), ih h.2]

namespace Tree

variable {t : Tree α}

theorem position_getElem {i : Nat} (hi : i < t.entries.length) :
    t.position t.entries[i].id = i := by
  have hlength : i < t.ids.length := by simpa [Table.ids] using hi
  have hget : t.ids[i] = t.entries[i].id := by simp [Table.ids]
  rw [position, ← hget]
  exact List.Nodup.idxOf_getElem t.nodup i hlength

theorem parent_position_lt {c : Entry α} (hc : c ∈ t.entries) {p : EntryId}
    (hp : c.parent = some p) : t.position p < t.position c.id := by
  obtain ⟨q, hq, rfl, hmem⟩ := exists_parent hc hp
  exact position_lt hq hmem

theorem pairwise_parent_ne :
    t.entries.reverse.Pairwise fun newer older => older.parent ≠ some newer.id := by
  rw [List.pairwise_reverse, List.pairwise_iff_getElem]
  intro i j hi hj hij hparent
  have hlt := parent_position_lt (List.getElem_mem hi) hparent
  rw [position_getElem, position_getElem] at hlt
  omega

theorem lineage_eq {e : Entry α} (he : e ∈ t.entries) :
    t.lineage e.id = e :: e.parent.elim [] t.lineage := by
  have hnodup : (t.entries.reverse.map Entry.id).Nodup := by
    rw [List.map_reverse, List.nodup_reverse]
    exact t.nodup
  apply lineageIn_eq hnodup pairwise_parent_ne _ (List.mem_reverse.2 he)
  intro d hd hparent
  have hlt := parent_position_lt (List.mem_reverse.1 hd) hparent
  omega

theorem ancestors_eq {e : Entry α} (he : e ∈ t.entries) :
    t.ancestors e.id = e.parent.elim [] t.lineage := by
  rw [ancestors, lineage_eq he, List.tail_cons]

theorem lineage_eq_cons {e : Entry α} (he : e ∈ t.entries) :
    t.lineage e.id = e :: t.ancestors e.id := by
  rw [ancestors_eq he, lineage_eq he]

theorem ancestors_root : t.ancestors t.root.id = [] := by
  rw [ancestors_eq root_mem, root_parent, Option.elim_none]

theorem ancestors_child {q c : Entry α} (hq : q ∈ t.entries) (hc : c ∈ t.childrenOf q) :
    t.ancestors c.id = q :: t.ancestors q.id := by
  obtain ⟨hmem, hparent⟩ := (mem_childrenOf_iff hq).1 hc
  rw [ancestors_eq hmem, hparent, Option.elim_some, lineage_eq_cons hq]

theorem ancestors_eq_nil {id : EntryId} (h : t.contains id = false) : t.ancestors id = [] := by
  have hid : id ∉ t.entries.reverse.map Entry.id := by
    rw [List.map_reverse, List.mem_reverse]
    intro hmem
    rw [(t.toTable.mem_ids_of_contains id).2 hmem] at h
    cases h
  rw [ancestors, lineage, lineageIn_eq_nil hid, List.tail_nil]

theorem mem_entries_of_mem_ancestors {id : EntryId} {a : Entry α} (ha : a ∈ t.ancestors id) :
    a ∈ t.entries := by
  cases hid : t.contains id with
  | false =>
    rw [ancestors_eq_nil hid] at ha
    cases ha
  | true =>
    obtain ⟨e, he, rfl⟩ := contains_iff.1 hid
    clear hid
    induction he using entries_induction with
    | root =>
      rw [ancestors_root] at ha
      cases ha
    | child q hq ih c hc =>
      rw [ancestors_child hq hc, List.mem_cons] at ha
      rcases ha with rfl | ha
      · exact hq
      · exact ih ha

theorem suffix_of_mem_ancestors {e a : Entry α} (he : e ∈ t.entries) (ha : a ∈ t.ancestors e.id) :
    a :: t.ancestors a.id <:+ t.ancestors e.id := by
  induction he using entries_induction with
  | root =>
    rw [ancestors_root] at ha
    cases ha
  | child q hq ih c hc =>
    rw [ancestors_child hq hc, List.mem_cons] at ha
    rw [ancestors_child hq hc]
    rcases ha with rfl | ha
    · exact List.suffix_refl _
    · exact (ih ha).trans (List.suffix_cons _ _)

theorem position_lt_of_mem_ancestors {e a : Entry α} (he : e ∈ t.entries)
    (ha : a ∈ t.ancestors e.id) : t.position a.id < t.position e.id := by
  induction he using entries_induction with
  | root =>
    rw [ancestors_root] at ha
    cases ha
  | child q hq ih c hc =>
    have hlt := position_lt hq hc
    rw [ancestors_child hq hc, List.mem_cons] at ha
    rcases ha with rfl | ha
    · exact hlt
    · exact Nat.lt_trans (ih ha) hlt

/-! ## The descendant test -/

theorem isDescendantOf_iff {candidate ancestor : EntryId} :
    t.isDescendantOf candidate ancestor = true ↔
      ∃ a ∈ t.ancestors candidate, a.id = ancestor := by
  simp [isDescendantOf]

theorem isDescendantOf_child {q c : Entry α} (hq : q ∈ t.entries) (hc : c ∈ t.childrenOf q)
    (ancestor : EntryId) :
    t.isDescendantOf c.id ancestor = true ↔
      q.id = ancestor ∨ t.isDescendantOf q.id ancestor = true := by
  rw [isDescendantOf_iff, isDescendantOf_iff, ancestors_child hq hc]
  simp

theorem contains_of_isDescendantOf {x y : EntryId} (h : t.isDescendantOf x y = true) :
    t.contains x = true ∧ t.contains y = true := by
  obtain ⟨a, ha, rfl⟩ := isDescendantOf_iff.1 h
  refine ⟨?_, contains_of_mem (mem_entries_of_mem_ancestors ha)⟩
  by_contra hx
  rw [ancestors_eq_nil (Bool.eq_false_iff.2 hx)] at ha
  cases ha

theorem isDescendantOf_trans {x y z : EntryId} (hxy : t.isDescendantOf x y = true)
    (hyz : t.isDescendantOf y z = true) : t.isDescendantOf x z = true := by
  obtain ⟨e, he, rfl⟩ := contains_iff.1 (contains_of_isDescendantOf hxy).1
  obtain ⟨a, ha, rfl⟩ := isDescendantOf_iff.1 hxy
  obtain ⟨b, hb, hid⟩ := isDescendantOf_iff.1 hyz
  have hsuffix := suffix_of_mem_ancestors he ha
  exact isDescendantOf_iff.2 ⟨b, hsuffix.subset (List.mem_cons_of_mem _ hb), hid⟩

/-! ## Depth -/

theorem depth_root : t.depth t.root.id = 0 := by
  rw [depth, ancestors_root, List.length_nil]

theorem depth_child {q c : Entry α} (hq : q ∈ t.entries) (hc : c ∈ t.childrenOf q) :
    t.depth c.id = t.depth q.id + 1 := by
  rw [depth, ancestors_child hq hc, List.length_cons, depth]

theorem depth_eq_zero_iff {e : Entry α} (he : e ∈ t.entries) : t.depth e.id = 0 ↔ e = t.root := by
  constructor
  · intro hdepth
    by_contra hne
    obtain ⟨q, hq, hc⟩ := exists_folder he hne
    rw [depth_child hq hc] at hdepth
    exact Nat.succ_ne_zero _ hdepth
  · rintro rfl
    exact depth_root

theorem depth_lt_of_isDescendantOf {x y : EntryId} (h : t.isDescendantOf x y = true) :
    t.depth y < t.depth x := by
  obtain ⟨e, he, rfl⟩ := contains_iff.1 (contains_of_isDescendantOf h).1
  obtain ⟨a, ha, rfl⟩ := isDescendantOf_iff.1 h
  have hle := (suffix_of_mem_ancestors he ha).length_le
  rw [List.length_cons] at hle
  exact hle

/-! ## What lies within an entry -/

/-- The entry `x` is `a` or lies below it. -/
def Within (t : Tree α) (x a : Entry α) : Prop :=
  x = a ∨ t.isDescendantOf x.id a.id = true

theorem Within.lineage_suffix {x a : Entry α} (ha : a ∈ t.entries) (hx : x ∈ t.entries)
    (h : t.Within x a) : t.lineage a.id <:+ t.lineage x.id := by
  rcases h with rfl | hdesc
  · exact List.suffix_refl _
  · obtain ⟨a', ha', hid⟩ := isDescendantOf_iff.1 hdesc
    obtain rfl := eq_of_id_eq ha (mem_entries_of_mem_ancestors ha') hid.symm
    rw [lineage_eq_cons ha, lineage_eq_cons hx]
    exact (suffix_of_mem_ancestors hx ha').trans (List.suffix_cons _ _)

/-- An entry within two children of a folder is within one child only. -/
theorem eq_of_common_descendant {q c c' x : Entry α} (hq : q ∈ t.entries)
    (hc : c ∈ t.childrenOf q) (hc' : c' ∈ t.childrenOf q) (hx : x ∈ t.entries)
    (hxc : t.Within x c) (hxc' : t.Within x c') : c = c' := by
  have hmem := mem_of_mem_childrenOf hq hc
  have hmem' := mem_of_mem_childrenOf hq hc'
  have hlength : (t.lineage c.id).length = (t.lineage c'.id).length := by
    rw [lineage_eq_cons hmem, lineage_eq_cons hmem', ancestors_child hq hc, ancestors_child hq hc']
    rfl
  have hsuffix := List.suffix_of_suffix_length_le (hxc.lineage_suffix hmem hx)
    (hxc'.lineage_suffix hmem' hx) (Nat.le_of_eq hlength)
  have heq := hsuffix.eq_of_length hlength
  rw [lineage_eq_cons hmem, lineage_eq_cons hmem'] at heq
  exact (List.cons.inj heq).1

theorem not_isDescendantOf_self (t : Tree α) (id : EntryId) :
    ¬ t.isDescendantOf id id = true := by
  intro hdesc
  obtain ⟨e, he, rfl⟩ := contains_iff.1 (contains_of_isDescendantOf hdesc).1
  obtain ⟨a, ha, hid⟩ := isDescendantOf_iff.1 hdesc
  have hlt := position_lt_of_mem_ancestors he ha
  rw [hid] at hlt
  omega

/-- Everything but the root lies below the root. -/
theorem isDescendantOf_root {e : Entry α} (he : e ∈ t.entries) (hne : e.id ≠ t.root.id) :
    t.isDescendantOf e.id t.root.id = true := by
  induction he using entries_induction with
  | root => exact absurd rfl hne
  | child q hq ih c hc =>
    rw [isDescendantOf_child hq hc]
    by_cases hq' : q.id = t.root.id
    · exact Or.inl hq'
    · exact Or.inr (ih hq')

theorem isDescendantOf_root_iff {e : Entry α} (he : e ∈ t.entries) :
    t.isDescendantOf e.id t.root.id = true ↔ e ≠ t.root := by
  constructor
  · rintro hdesc rfl
    exact not_isDescendantOf_self t _ hdesc
  · exact fun hne => isDescendantOf_root he fun hid => hne (eq_of_id_eq he root_mem hid)

/-! ## Descendants in the nested form -/

theorem isDescendantOf_of_occurs {s : Snapshot α} (h : s.entries = t.entries)
    {q : Option EntryId} {c : Snapshot α} (hc : s.Occurs q c) {p : EntryId} {d : Snapshot α}
    (hd : c.Occurs (some p) d) : t.isDescendantOf d.id c.id = true := by
  generalize hparent : some p = parent at hd
  induction hd generalizing p with
  | top => cases hparent
  | @child parent' folder d hfolder hd ih =>
    have hstep {r : Option EntryId} (hr : s.Occurs r folder) :
        t.isDescendantOf d.id c.id = true ↔
          folder.id = c.id ∨ t.isDescendantOf folder.id c.id = true := by
      have hdesc := isDescendantOf_child (entry_mem h hr) (entry_mem_childrenOf h hr hd) c.id
      rwa [Snapshot.entry_id, Snapshot.entry_id] at hdesc
    cases parent' with
    | none =>
      cases hfolder
      exact (hstep hc).2 (Or.inl rfl)
    | some p' => exact (hstep (hc.inside hfolder)).2 (Or.inr (ih rfl))

theorem isDescendantOf_of_mem_below {s : Snapshot α} (h : s.entries = t.entries)
    {c d : Snapshot α} (hc : c ∈ s.parts) (hd : d ∈ c.children.flatMap Snapshot.parts) :
    t.isDescendantOf d.id c.id = true := by
  obtain ⟨q, hc⟩ := Snapshot.mem_parts_iff.1 hc
  obtain ⟨p, hd⟩ := Snapshot.exists_occurs_of_mem_below hd
  exact isDescendantOf_of_occurs h hc hd

theorem eq_or_isDescendantOf_of_mem_ids {s : Snapshot α} (h : s.entries = t.entries)
    {c : Snapshot α} (hc : c ∈ s.parts) {id : EntryId} (hid : id ∈ c.ids) :
    id = c.id ∨ t.isDescendantOf id c.id = true := by
  obtain ⟨d, hd, rfl⟩ := List.mem_map.1 hid
  rw [Snapshot.parts_eq, List.mem_cons] at hd
  rcases hd with rfl | hd
  · exact Or.inl rfl
  · exact Or.inr (isDescendantOf_of_mem_below h hc hd)

end Tree

end TreeBrowser
