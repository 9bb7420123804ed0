import TreeBrowser.Proofs.Tree.Occurrence

/-!
# The order in which parts are met

`meetingOrder` is the traversal by a stack of folders, said for itself: all children of a folder in
order, and then the folder that was met most recently and has not been gone through. It is the order
of the table, and in it every folder stands before its children.
-/

namespace TreeBrowser.Snapshot

variable {α : Type}

def meetingOrder : List (Snapshot α) → List (Snapshot α)
  | [] => []
  | folder :: stack =>
    folder.children ++ meetingOrder ((folder.children.filter isNode).reverse ++ stack)
termination_by stack => sizeAll stack
decreasing_by
  have hfolders := sizeAll_filter_le isNode folder.children
  have hbelow := sizeAll_children_lt folder
  simp only [sizeAll_append, sizeAll_reverse, sizeAll]
  omega

/-- All parts in the order in which they are met, the top first. -/
def met (s : Snapshot α) : List (Snapshot α) :=
  s :: meetingOrder [s]

theorem meetingOrder_eq (stack : List (Snapshot α)) :
    meetingOrder stack = (stack.flatMap placed).map Prod.snd := by
  induction stack using meetingOrder.induct with
  | case1 => rw [meetingOrder, List.flatMap_nil, List.map_nil]
  | case2 folder stack ih =>
    have hchildren : (folder.children.map (Prod.mk folder.id)).map Prod.snd = folder.children := by
      simp [Function.comp_def]
    rw [meetingOrder, ih, List.flatMap_append, flatMap_placed_folders, List.flatMap_cons,
      placed_eq folder, List.append_assoc, List.map_append, List.map_append, List.map_append,
      hchildren]

theorem met_eq (s : Snapshot α) : s.met = s :: s.placed.map Prod.snd := by
  rw [met, meetingOrder_eq, List.flatMap_singleton]

theorem met_perm (s : Snapshot α) : s.met.Perm s.parts := by
  rw [met_eq, parts_eq]
  exact (placed_perm s).cons s

theorem entries_ids (s : Snapshot α) : s.entries.map Entry.id = s.met.map id := by
  rw [met_eq]
  simp [entries, Function.comp_def, placedEntry, entry_id]

/-! ## Folders stand before their children -/

def ChildrenLater : List (Snapshot α) → Prop
  | [] => True
  | s :: later => (∀ c ∈ s.children, c ∈ later) ∧ ChildrenLater later

theorem ChildrenLater.append {l l' : List (Snapshot α)} (h : ChildrenLater l)
    (h' : ChildrenLater l') : ChildrenLater (l ++ l') := by
  induction l with
  | nil => exact h'
  | cons s rest ih =>
    exact ⟨fun c hc => List.mem_append_left _ (h.1 c hc), ih h.2⟩

theorem ChildrenLater.flatMap {ss : List (Snapshot α)} {f : Snapshot α → List (Snapshot α)}
    (h : ∀ s ∈ ss, ChildrenLater (f s)) : ChildrenLater (ss.flatMap f) := by
  induction ss with
  | nil => trivial
  | cons s rest ih =>
    rw [List.flatMap_cons]
    exact (h s List.mem_cons_self).append (ih fun d hd => h d (List.mem_cons_of_mem _ hd))

theorem ChildrenLater.append_of_subset {l l' : List (Snapshot α)}
    (h : ∀ s ∈ l, ∀ c ∈ s.children, c ∈ l') (h' : ChildrenLater l') :
    ChildrenLater (l ++ l') := by
  induction l with
  | nil => exact h'
  | cons s rest ih =>
    refine ⟨fun c hc => List.mem_append_right _ (h s List.mem_cons_self c hc), ih ?_⟩
    exact fun d hd => h d (List.mem_cons_of_mem _ hd)

theorem ChildrenLater.mem {l : List (Snapshot α)} (h : ChildrenLater l) {s c : Snapshot α}
    (hs : s ∈ l) (hc : c ∈ s.children) : c ∈ l := by
  induction l with
  | nil => cases hs
  | cons d rest ih =>
    rcases List.mem_cons.1 hs with rfl | hs
    · exact List.mem_cons_of_mem _ (h.1 c hc)
    · exact List.mem_cons_of_mem _ (ih h.2 hs)

theorem childrenLater_placed (s : Snapshot α) : ChildrenLater (s.placed.map Prod.snd) := by
  induction s using nestedInduction with
  | node id name data children ih =>
    have hsnd : (node id name data children).placed.map Prod.snd =
        children ++ children.reverse.flatMap fun c => c.placed.map Prod.snd := by
      simp [placed, placedLast_eq_flatMap, List.map_flatMap, Function.comp_def]
    have hdeeper : ChildrenLater
        (children.reverse.flatMap fun c => c.placed.map Prod.snd) :=
      ChildrenLater.flatMap fun c hc => ih c (List.mem_reverse.1 hc)
    rw [hsnd]
    apply ChildrenLater.append_of_subset _ hdeeper
    intro s hs c hc
    refine List.mem_flatMap.2 ⟨s, List.mem_reverse.2 hs, List.mem_map.2 ⟨(s.id, c), ?_, rfl⟩⟩
    exact mem_placed_of_mem_children hc
  | leaf => trivial

theorem childrenLater_met (s : Snapshot α) : ChildrenLater s.met := by
  rw [met_eq]
  refine ⟨fun c hc => List.mem_map.2 ⟨(s.id, c), ?_, rfl⟩, childrenLater_placed s⟩
  exact mem_placed_of_mem_children hc

theorem idxOf_lt_of_childrenLater {l : List (Snapshot α)} (h : ChildrenLater l)
    (hnodup : (l.map id).Nodup) {s c : Snapshot α} (hs : s ∈ l) (hc : c ∈ s.children) :
    (l.map id).idxOf s.id < (l.map id).idxOf c.id := by
  induction l with
  | nil => cases hs
  | cons d rest ih =>
    rw [List.map_cons, List.nodup_cons] at hnodup
    have hlater (x : Snapshot α) (hx : x ∈ rest) :
        ((d :: rest).map id).idxOf x.id = (rest.map id).idxOf x.id + 1 := by
      rw [List.map_cons]
      apply List.idxOf_cons_ne
      exact fun heq => hnodup.1 (heq ▸ List.mem_map_of_mem hx)
    rcases List.mem_cons.1 hs with rfl | hs
    · rw [hlater c (h.1 c hc), List.map_cons, List.idxOf_cons_self]
      omega
    · rw [hlater s hs, hlater c (h.2.mem hs hc)]
      have := ih h.2 hnodup.2 hs
      omega

end TreeBrowser.Snapshot
