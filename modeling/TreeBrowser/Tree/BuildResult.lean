import TreeBrowser.Tree.Build

/-!
# What comes of building a table

A building ends well exactly when no id is met twice, and then the table lists the parts of the
snapshot in the order in which they are met. The invariant of the stack: the folders on it are in
the table, each without its children.
-/

namespace TreeBrowser

variable {α : Type}

/-- The first id that has stood before or is in `seen`. -/
def firstRepeat? (seen : List EntryId) : List EntryId → Option EntryId
  | [] => none
  | id :: rest => if id ∈ seen then some id else firstRepeat? (id :: seen) rest

theorem firstRepeat?_eq_none_iff {seen ids : List EntryId} :
    firstRepeat? seen ids = none ↔ ids.Nodup ∧ ∀ id ∈ ids, id ∉ seen := by
  induction ids generalizing seen with
  | nil => simp [firstRepeat?]
  | cons id rest ih =>
    by_cases h : id ∈ seen
    · simp [firstRepeat?, h]
    · simp only [firstRepeat?, h, if_false, ih, List.nodup_cons, List.mem_cons, not_or]
      constructor
      · rintro ⟨hn, hr⟩
        refine ⟨⟨fun hm => (hr id hm).1 rfl, hn⟩, ?_⟩
        rintro x (rfl | hx)
        · exact h
        · exact (hr x hx).2
      · rintro ⟨⟨hid, hn⟩, hr⟩
        refine ⟨hn, fun x hx => ⟨?_, hr x (Or.inr hx)⟩⟩
        rintro rfl
        exact hid hx

theorem firstRepeat?_congr {seen seen' : List EntryId} (h : ∀ id, id ∈ seen ↔ id ∈ seen')
    (ids : List EntryId) : firstRepeat? seen ids = firstRepeat? seen' ids := by
  induction ids generalizing seen seen' with
  | nil => rfl
  | cons id rest ih =>
    have hrest : firstRepeat? (id :: seen) rest = firstRepeat? (id :: seen') rest :=
      ih fun x => by rw [List.mem_cons, List.mem_cons, h]
    simp only [firstRepeat?, h id, hrest]

theorem firstRepeat?_append (seen ids ids' : List EntryId) :
    firstRepeat? seen (ids ++ ids') =
      (firstRepeat? seen ids).or (firstRepeat? (seen ++ ids) ids') := by
  induction ids generalizing seen with
  | nil => simp [firstRepeat?]
  | cons id rest ih =>
    by_cases h : id ∈ seen
    · simp [firstRepeat?, h]
    · have hseen : firstRepeat? (id :: seen ++ rest) ids' =
          firstRepeat? (seen ++ id :: rest) ids' :=
        firstRepeat?_congr (fun x => by simp [or_left_comm]) ids'
      simp only [List.cons_append, firstRepeat?, h, if_false, ih]
      rw [← List.cons_append, hseen]

def Entry.adoptAll (parent : EntryId) (ids : List EntryId) (e : Entry α) : Entry α :=
  ids.foldl (fun e id => e.adopt parent id) e

namespace Entry

@[simp] theorem adopt_id (parent child : EntryId) (e : Entry α) :
    (e.adopt parent child).id = e.id := by
  unfold adopt
  split
  · split <;> rfl
  · rfl

theorem adopt_of_ne {parent : EntryId} {e : Entry α} (h : e.id ≠ parent) (child : EntryId) :
    e.adopt parent child = e := by
  unfold adopt
  split
  · rw [if_neg h]
  · rfl

@[simp] theorem adoptAll_id (parent : EntryId) (ids : List EntryId) (e : Entry α) :
    (e.adoptAll parent ids).id = e.id := by
  unfold adoptAll
  induction ids generalizing e with
  | nil => rfl
  | cons id rest ih => rw [List.foldl_cons, ih, adopt_id]

theorem adoptAll_of_ne {parent : EntryId} {e : Entry α} (h : e.id ≠ parent)
    (ids : List EntryId) : e.adoptAll parent ids = e := by
  unfold adoptAll
  induction ids with
  | nil => rfl
  | cons id rest ih => rw [List.foldl_cons, adopt_of_ne h, ih]

theorem adopt_node (id : EntryId) (name : String) (data : α) (parent : Option EntryId)
    (children : List EntryId) (child : EntryId) :
    adopt id child ⟨id, name, data, parent, .node children⟩ =
      ⟨id, name, data, parent, .node (children ++ [child])⟩ := by
  simp [adopt]

theorem adoptAll_node (id : EntryId) (name : String) (data : α) (parent : Option EntryId)
    (children ids : List EntryId) :
    adoptAll id ids ⟨id, name, data, parent, .node children⟩ =
      ⟨id, name, data, parent, .node (children ++ ids)⟩ := by
  unfold adoptAll
  induction ids generalizing children with
  | nil => simp
  | cons child rest ih =>
    rw [List.foldl_cons, adopt_node, ih, List.append_assoc, List.singleton_append]

def filled (folders : List (Snapshot α)) (e : Entry α) : Entry α :=
  folders.foldl (fun e folder => e.adoptAll folder.id (folder.children.map Snapshot.id)) e

theorem filled_nil (e : Entry α) : e.filled [] = e := rfl

theorem filled_cons (folder : Snapshot α) (rest : List (Snapshot α)) (e : Entry α) :
    e.filled (folder :: rest) =
      (e.adoptAll folder.id (folder.children.map Snapshot.id)).filled rest := rfl

theorem filled_append (folders folders' : List (Snapshot α)) (e : Entry α) :
    e.filled (folders ++ folders') = (e.filled folders).filled folders' := by
  simp [filled]

theorem filled_of_not_mem {folders : List (Snapshot α)} {e : Entry α}
    (h : e.id ∉ folders.map Snapshot.id) : e.filled folders = e := by
  unfold filled
  induction folders with
  | nil => rfl
  | cons folder rest ih =>
    simp only [List.map_cons, List.mem_cons, not_or] at h
    rw [List.foldl_cons, adoptAll_of_ne h.1, ih h.2]

end Entry

namespace Snapshot

theorem bareEntry_id (parent : Option EntryId) (s : Snapshot α) :
    (s.bareEntry parent).id = s.id := by
  cases s <;> rfl

theorem entry_id (parent : Option EntryId) (s : Snapshot α) : (s.entry parent).id = s.id := by
  cases s <;> rfl

theorem adoptAll_bareEntry (parent : Option EntryId) (s : Snapshot α) :
    (s.bareEntry parent).adoptAll s.id (s.children.map Snapshot.id) = s.entry parent := by
  cases s with
  | node id name data children => exact Entry.adoptAll_node id name data parent [] _
  | leaf => rfl

end Snapshot

namespace Table

theorem mem_ids_of_contains (t : Table α) (id : EntryId) : t.contains id = true ↔ id ∈ t.ids := by
  simp [contains, get?, ids]

def withChildren (parent : EntryId) (children : List (Snapshot α)) (t : Table α) : Table α :=
  ⟨t.root.adoptAll parent (children.map Snapshot.id),
    t.others.map (Entry.adoptAll parent (children.map Snapshot.id))
      ++ children.map (Snapshot.bareEntry (some parent))⟩

theorem ids_withChildren (parent : EntryId) (children : List (Snapshot α)) (t : Table α) :
    (t.withChildren parent children).ids = t.ids ++ children.map Snapshot.id := by
  simp [withChildren, ids, entries, Function.comp_def, Snapshot.bareEntry_id]

/-- The children of a folder are entered unless an id comes a second time. -/
theorem foldlM_insert {parent : EntryId} (children : List (Snapshot α)) (t : Table α)
    (hparent : parent ∈ t.ids) :
    children.foldlM (insert parent) t =
      match firstRepeat? t.ids (children.map Snapshot.id) with
      | some id => .error (.duplicateId id)
      | none => .ok (t.withChildren parent children) := by
  induction children generalizing t with
  | nil =>
    have hid : Entry.adoptAll (α := α) parent [] = id := rfl
    simp [firstRepeat?, withChildren, hid, pure, Except.pure]
  | cons c rest ih =>
    by_cases hc : c.id ∈ t.ids
    · have hinsert : insert parent t c = .error (.duplicateId c.id) := by
        rw [insert, if_pos ((mem_ids_of_contains t c.id).2 hc)]
      simp [List.foldlM_cons, hinsert, firstRepeat?, hc, bind, Except.bind]
    · have hinsert : insert parent t c = .ok (t.withChildren parent [c]) := by
        rw [insert, if_neg (fun h => hc ((mem_ids_of_contains t c.id).1 h))]
        rfl
      have hne : (c.bareEntry (some parent)).id ≠ parent := by
        rw [Snapshot.bareEntry_id]
        rintro rfl
        exact hc hparent
      have hids := ids_withChildren parent [c] t
      have hseen : firstRepeat? (c.id :: t.ids) (rest.map Snapshot.id) =
          firstRepeat? (t.withChildren parent [c]).ids (rest.map Snapshot.id) :=
        firstRepeat?_congr (fun x => by simp [hids, or_comm]) _
      have hwith : (t.withChildren parent [c]).withChildren parent rest =
          t.withChildren parent (c :: rest) := by
        have hadopt (e : Entry α) : (e.adoptAll parent [c.id]).adoptAll parent
            (rest.map Snapshot.id) = e.adoptAll parent (c.id :: rest.map Snapshot.id) := rfl
        simp [withChildren, Entry.adoptAll_of_ne hne, Function.comp_def, hadopt]
      rw [List.foldlM_cons, hinsert]
      simp only [List.map_cons, firstRepeat?, hc, if_false, hseen]
      rw [← hwith]
      exact ih _ (by rw [hids]; exact List.mem_append_left _ hparent)

/-- A table after everything below the folders on the stack has been entered. -/
def withStack (stack : List (Snapshot α)) (t : Table α) : Table α :=
  ⟨t.root.filled stack,
    t.others.map (Entry.filled stack)
      ++ (stack.flatMap Snapshot.placed).map Snapshot.placedEntry⟩

end Table

namespace Snapshot

theorem placedLast_eq_flatMap (children : List (Snapshot α)) :
    placedLast children = children.reverse.flatMap placed := by
  induction children with
  | nil => rfl
  | cons s rest ih => simp [placedLast, ih]

theorem placed_of_isNode_eq_false {s : Snapshot α} (h : s.isNode = false) : s.placed = [] := by
  cases s with
  | node => simp [isNode] at h
  | leaf => rfl

theorem placed_eq (s : Snapshot α) :
    s.placed = s.children.map (Prod.mk s.id) ++ placedLast s.children := by
  cases s with
  | node id name data cs =>
    rw [placed]
    rfl
  | leaf => rfl

/-- The folders among the children are what is put on the stack, and nothing is below the others. -/
theorem flatMap_placed_folders (children : List (Snapshot α)) :
    (children.filter isNode).reverse.flatMap placed = placedLast children := by
  rw [placedLast_eq_flatMap, ← List.filter_reverse]
  induction children.reverse with
  | nil => rfl
  | cons s rest ih =>
    by_cases h : s.isNode = true
    · simp [h, ih]
    · have hs : s.isNode = false := by simpa using h
      simp [hs, ih, placed_of_isNode_eq_false hs]

theorem not_mem_folders {id : EntryId} {ss : List (Snapshot α)} (h : id ∉ ss.map Snapshot.id) :
    id ∉ (ss.filter isNode).reverse.map Snapshot.id := by
  rw [List.map_reverse, List.mem_reverse]
  exact fun hmem => h ((List.filter_sublist.map _).subset hmem)

/-- A child that has been entered is complete when its own children have been. -/
theorem filled_bareEntry {children : List (Snapshot α)} (hnodup : (children.map id).Nodup)
    {c : Snapshot α} (hc : c ∈ children) (parent : Option EntryId) :
    (c.bareEntry parent).filled (children.filter isNode).reverse = c.entry parent := by
  obtain ⟨before, after, rfl⟩ := List.append_of_mem hc
  simp only [List.map_append, List.map_cons, List.nodup_append, List.nodup_cons] at hnodup
  obtain ⟨-, ⟨hafter, -⟩, hdisjoint⟩ := hnodup
  have hbefore : c.id ∉ before.map Snapshot.id :=
    fun h => hdisjoint _ h _ List.mem_cons_self rfl
  have hfirst : (c.bareEntry parent).filled (after.filter isNode).reverse = c.bareEntry parent := by
    apply Entry.filled_of_not_mem
    rw [bareEntry_id]
    exact not_mem_folders hafter
  have hlast : (c.entry parent).filled (before.filter isNode).reverse = c.entry parent := by
    apply Entry.filled_of_not_mem
    rw [entry_id]
    exact not_mem_folders hbefore
  cases c with
  | node id name data children =>
    simp only [List.filter_append, List.filter_cons, isNode, if_true, List.reverse_append,
      List.reverse_cons, List.append_assoc, Entry.filled_append, hfirst]
    rw [Entry.filled_cons, Entry.filled_nil, adoptAll_bareEntry, hlast]
  | leaf id name data expandable =>
    simp only [List.filter_append, List.filter_cons, isNode, Bool.false_eq_true, if_false,
      List.reverse_append, Entry.filled_append, hfirst]
    exact hlast

/-- A child that has just been entered is complete when its own children have been, since it is not
on the stack otherwise. -/
theorem filled_bareEntry_append {folder c : Snapshot α} {stack : List (Snapshot α)}
    (hnodup : (folder.children.map id).Nodup) (hc : c ∈ folder.children)
    (hstack : c.id ∉ stack.map id) :
    (c.bareEntry (some folder.id)).filled ((folder.children.filter isNode).reverse ++ stack) =
      placedEntry (folder.id, c) := by
  rw [Entry.filled_append, filled_bareEntry hnodup hc, Entry.filled_of_not_mem]
  · rfl
  · rw [entry_id]
    exact hstack

end Snapshot

/-- An entry that was there before `folder` was taken off the stack is none of its children. -/
theorem Entry.filled_adoptAll {folder : Snapshot α} {stack : List (Snapshot α)} {e : Entry α}
    (he : e.id ∉ folder.children.map Snapshot.id) :
    (e.adoptAll folder.id (folder.children.map Snapshot.id)).filled
        ((folder.children.filter Snapshot.isNode).reverse ++ stack) =
      e.filled (folder :: stack) := by
  rw [filled_append, filled_cons]
  congr 1
  apply filled_of_not_mem
  rw [adoptAll_id]
  exact Snapshot.not_mem_folders he

namespace Table

/-- Taking a folder off the stack and putting its own folders on it leaves what the table will be
in the end as it is. -/
theorem withStack_step {folder : Snapshot α} {stack : List (Snapshot α)} {t : Table α}
    (hstack : ∀ s ∈ stack, s.id ∈ t.ids) (hnodup : (folder.children.map Snapshot.id).Nodup)
    (hnew : ∀ id ∈ folder.children.map Snapshot.id, id ∉ t.ids) :
    (t.withChildren folder.id folder.children).withStack
        ((folder.children.filter Snapshot.isNode).reverse ++ stack) =
      t.withStack (folder :: stack) := by
  have hold (e : Entry α) (he : e ∈ t.entries) : e.id ∉ folder.children.map Snapshot.id :=
    fun h => hnew _ h (List.mem_map_of_mem he)
  have hchild (c : Snapshot α) (hc : c ∈ folder.children) : c.id ∉ stack.map Snapshot.id := by
    intro h
    obtain ⟨s, hs, hid⟩ := List.mem_map.1 h
    exact hnew c.id (List.mem_map_of_mem hc) (hid ▸ hstack s hs)
  have hroot : (t.root.adoptAll folder.id (folder.children.map Snapshot.id)).filled
        ((folder.children.filter Snapshot.isNode).reverse ++ stack) =
      t.root.filled (folder :: stack) :=
    Entry.filled_adoptAll (hold t.root List.mem_cons_self)
  have hothers : t.others.map (Entry.filled
        ((folder.children.filter Snapshot.isNode).reverse ++ stack) ∘
          Entry.adoptAll folder.id (folder.children.map Snapshot.id)) =
      t.others.map (Entry.filled (folder :: stack)) :=
    List.map_congr_left fun e he => Entry.filled_adoptAll (hold e (List.mem_cons_of_mem _ he))
  have hchildren : folder.children.map (Entry.filled
        ((folder.children.filter Snapshot.isNode).reverse ++ stack) ∘
          Snapshot.bareEntry (some folder.id)) =
      (folder.children.map (Prod.mk folder.id)).map Snapshot.placedEntry := by
    rw [List.map_map]
    exact List.map_congr_left fun c hc =>
      Snapshot.filled_bareEntry_append hnodup hc (hchild c hc)
  simp only [withStack, withChildren, hroot, List.map_append, List.map_map, hothers, hchildren,
    List.flatMap_append, List.flatMap_cons, Snapshot.flatMap_placed_folders,
    Snapshot.placed_eq folder, List.append_assoc]

theorem build_eq (stack : List (Snapshot α)) (t : Table α) (hin : ∀ s ∈ stack, s.id ∈ t.ids) :
    build stack t =
      match firstRepeat? t.ids ((stack.flatMap Snapshot.placed).map fun p => p.2.id) with
      | some id => .error (.duplicateId id)
      | none => .ok (t.withStack stack) := by
  induction stack, t using build.induct with
  | case1 t =>
    have hfilled : Entry.filled (α := α) [] = id := rfl
    simp [build, withStack, hfilled, firstRepeat?]
  | case2 folder stack t ih =>
    have hfolder : folder.id ∈ t.ids := hin folder List.mem_cons_self
    have hstack (s : Snapshot α) (hs : s ∈ stack) : s.id ∈ t.ids :=
      hin s (List.mem_cons_of_mem _ hs)
    have hsplit : ((folder :: stack).flatMap Snapshot.placed).map (fun p => p.2.id) =
        folder.children.map Snapshot.id ++
          ((((folder.children.filter Snapshot.isNode).reverse ++ stack).flatMap
            Snapshot.placed).map fun p => p.2.id) := by
      simp [Snapshot.placed_eq folder, Snapshot.flatMap_placed_folders, Function.comp_def]
    rw [build, foldlM_insert folder.children t hfolder, hsplit, firstRepeat?_append,
      ← ids_withChildren folder.id]
    cases hrepeat : firstRepeat? t.ids (folder.children.map Snapshot.id) with
    | some id => rfl
    | none =>
      obtain ⟨hnodup, hnew⟩ := firstRepeat?_eq_none_iff.1 hrepeat
      rw [Option.none_or, ← withStack_step hstack hnodup hnew]
      apply ih
      intro s hs
      rw [ids_withChildren, List.mem_append]
      rcases List.mem_append.1 hs with hs | hs
      · rw [List.mem_reverse] at hs
        exact Or.inr (List.mem_map_of_mem (List.mem_filter.1 hs).1)
      · exact Or.inl (hstack s hs)

/-- The building of a whole snapshot ends with the first id that is met twice, or else with the
table of its entries. -/
theorem build_top (s : Snapshot α) :
    build [s] ⟨s.bareEntry none, []⟩ =
      match firstRepeat? [] (s.entries.map Entry.id) with
      | some id => .error (.duplicateId id)
      | none => .ok ⟨s.entry none, s.placed.map Snapshot.placedEntry⟩ := by
  have hids : ids ⟨s.bareEntry none, []⟩ = [s.id] := by
    simp [ids, entries, Snapshot.bareEntry_id]
  have hentries : s.entries.map Entry.id = s.id :: s.placed.map fun p => p.2.id := by
    simp [Snapshot.entries, Function.comp_def, Snapshot.placedEntry, Snapshot.entry_id]
  have hstack : withStack [s] ⟨s.bareEntry none, []⟩ =
      ⟨s.entry none, s.placed.map Snapshot.placedEntry⟩ := by
    simp [withStack, Entry.filled_cons, Entry.filled_nil, Snapshot.adoptAll_bareEntry]
  rw [build_eq [s] _ (by simp [hids]), hids, hentries, hstack]
  simp [firstRepeat?]

theorem build_top_eq_ok {s : Snapshot α} {t : Table α}
    (h : build [s] ⟨s.bareEntry none, []⟩ = .ok t) : s.entries = t.entries ∧ t.ids.Nodup := by
  rw [build_top] at h
  split at h
  · cases h
  · rename_i hnone
    cases h
    exact ⟨rfl, (firstRepeat?_eq_none_iff.1 hnone).1⟩

end Table

end TreeBrowser
