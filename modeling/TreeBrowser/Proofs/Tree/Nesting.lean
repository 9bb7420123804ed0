import TreeBrowser.Proofs.Tree.Ancestry
import TreeBrowser.Proofs.Tree.RoundTrip

/-!
# Queries on the nesting

What encloses a part of a snapshot is said by the nesting alone: a chain of folders, nearest first,
from the one that the part is in to the whole. The queries of a tree follow parents through its
table, and their answers are those of the snapshot that the tree is built from.
-/

namespace TreeBrowser

variable {α : Type}

namespace Snapshot

def name : Snapshot α → String
  | .node _ name _ _ => name
  | .leaf _ name _ _ => name

/-- `s.Encloses chain c`: the part `c` of `s` is in the first folder of `chain`, each of which is in
the next one, and the last one is `s`; or the chain is empty and `c` is `s`. -/
inductive Encloses (s : Snapshot α) : List (Entry α) → Snapshot α → Prop
  | top : s.Encloses [] s
  | child {chain : List (Entry α)} {folder c : Snapshot α} :
      s.Encloses chain folder → c ∈ folder.children →
        s.Encloses (folder.entry (chain.head?.map Entry.id) :: chain) c

/-- A part with the id `id` is in the children of a part with the id `ancestor`, at any depth. -/
def LiesBelow (s : Snapshot α) (id ancestor : EntryId) : Prop :=
  ∃ c ∈ s.parts, c.id = ancestor ∧ ∃ d ∈ c.children.flatMap parts, d.id = id

theorem name_entry (parent : Option EntryId) (s : Snapshot α) : (s.entry parent).name = s.name := by
  cases s <;> rfl

variable {s c folder : Snapshot α} {chain : List (Entry α)}

theorem isNode_of_mem_children (hc : c ∈ folder.children) : folder.isNode = true := by
  cases folder with
  | node => rfl
  | leaf => cases hc

theorem Encloses.occurs (h : s.Encloses chain c) : s.Occurs (chain.head?.map Entry.id) c := by
  induction h with
  | top => exact Occurs.top
  | child _ hc ih =>
    rw [List.head?_cons, Option.map_some, entry_id]
    exact ih.child hc

theorem Occurs.exists_encloses {parent : Option EntryId} (h : s.Occurs parent c) :
    ∃ chain, s.Encloses chain c ∧ chain.head?.map Entry.id = parent := by
  induction h with
  | top => exact ⟨[], Encloses.top, rfl⟩
  | child _ hc ih =>
    obtain ⟨chain, hchain, -⟩ := ih
    refine ⟨_, hchain.child hc, ?_⟩
    rw [List.head?_cons, Option.map_some, entry_id]

theorem Encloses.getLast?_eq (h : s.Encloses chain c) (hchain : chain ≠ []) :
    chain.getLast? = some (s.entry none) := by
  induction h with
  | top => exact absurd rfl hchain
  | @child chain folder c hfolder _ ih =>
    cases hfolder with
    | top => rfl
    | child hfolder hc => rw [List.getLast?_cons_cons, ih (List.cons_ne_nil _ _)]

theorem mem_parts_of_mem_children (hfolder : folder ∈ s.parts) (hc : c ∈ folder.children) :
    c ∈ s.parts := by
  obtain ⟨parent, hoccurs⟩ := mem_parts_iff.1 hfolder
  exact mem_parts_iff.2 ⟨_, hoccurs.child hc⟩

theorem Encloses.liesBelow (h : s.Encloses chain c) {e : Entry α} (he : e ∈ chain) :
    s.LiesBelow c.id e.id := by
  suffices hbelow : ∃ a ∈ s.parts, a.id = e.id ∧ c ∈ a.children.flatMap parts by
    obtain ⟨a, ha, hid, hc⟩ := hbelow
    exact ⟨a, ha, hid, c, hc, rfl⟩
  induction h with
  | top => cases he
  | @child chain folder c hfolder hc ih =>
    rcases List.mem_cons.1 he with rfl | he
    · refine ⟨folder, mem_parts_iff.2 ⟨_, hfolder.occurs⟩, (entry_id _ folder).symm, ?_⟩
      exact List.mem_flatMap.2 ⟨c, hc, c.self_mem_parts⟩
    · obtain ⟨a, ha, hid, hbelow⟩ := ih he
      obtain ⟨d, hd, hmem⟩ := List.mem_flatMap.1 hbelow
      exact ⟨a, ha, hid, List.mem_flatMap.2 ⟨d, hd, mem_parts_of_mem_children hmem hc⟩⟩

end Snapshot

namespace Tree

variable {t : Tree α} {s c folder : Snapshot α} {chain : List (Entry α)} {id : EntryId}

theorem contains_iff_encloses (h : s.entries = t.entries) :
    t.contains id = true ↔ ∃ chain c, s.Encloses chain c ∧ c.id = id := by
  rw [contains_iff_mem_ids h, Snapshot.ids, List.mem_map]
  constructor
  · rintro ⟨c, hc, hid⟩
    obtain ⟨parent, hoccurs⟩ := Snapshot.mem_parts_iff.1 hc
    obtain ⟨chain, hchain, -⟩ := hoccurs.exists_encloses
    exact ⟨chain, c, hchain, hid⟩
  · rintro ⟨chain, c, hchain, hid⟩
    exact ⟨c, Snapshot.mem_parts_iff.2 ⟨_, hchain.occurs⟩, hid⟩

/-! ## Ancestors -/

theorem ancestors_eq_chain (h : s.entries = t.entries) (hchain : s.Encloses chain c) :
    t.ancestors c.id = chain := by
  induction hchain with
  | top =>
    rw [← Snapshot.entry_id none s, ← root_eq h]
    exact ancestors_root
  | @child chain folder c hfolder hc ih =>
    have hstep := ancestors_child (entry_mem h hfolder.occurs)
      (entry_mem_childrenOf h hfolder.occurs hc)
    rwa [Snapshot.entry_id, Snapshot.entry_id, ih] at hstep

theorem parent?_child {q c : Entry α} (hq : q ∈ t.entries) (hc : c ∈ t.childrenOf q) :
    t.parent? c.id = some q := by
  obtain ⟨hmem, hparent⟩ := (mem_childrenOf_iff hq).1 hc
  rw [parent?, get?_of_mem hmem, Option.bind_some, hparent, Option.bind_some, get?_of_mem hq]

theorem ancestors_eq_parent? (t : Tree α) (id : EntryId) :
    t.ancestors id = (t.parent? id).elim [] fun p => p :: t.ancestors p.id := by
  rw [parent?]
  cases hget : t.get? id with
  | none =>
    have hunknown : t.contains id = false := by rw [Table.contains, hget, Option.isSome_none]
    exact ancestors_eq_nil hunknown
  | some e =>
    obtain ⟨he, rfl⟩ := get?_eq_some_iff.1 hget
    rw [Option.bind_some]
    cases hparent : e.parent with
    | none =>
      rw [(eq_root_iff he).2 hparent]
      exact ancestors_root
    | some p =>
      obtain ⟨q, hq, rfl, hchild⟩ := exists_parent he hparent
      rw [Option.bind_some, get?_of_mem hq, Option.elim_some]
      exact ancestors_child hq hchild

/-! ## Descendants -/

/-- An entry lies below its parent and below what its parent lies below. -/
theorem isDescendantOf_iff_parent? {ancestor : EntryId} :
    t.isDescendantOf id ancestor = true ↔
      ∃ p, t.parent? id = some p ∧ (p.id = ancestor ∨ t.isDescendantOf p.id ancestor = true) := by
  rw [isDescendantOf_iff, ancestors_eq_parent?]
  cases t.parent? id with
  | none => simp
  | some p => simp [isDescendantOf_iff]

theorem isDescendantOf_iff_liesBelow (h : s.entries = t.entries) {ancestor : EntryId} :
    t.isDescendantOf id ancestor = true ↔ s.LiesBelow id ancestor := by
  constructor
  · intro hdesc
    have hid := (contains_of_isDescendantOf hdesc).1
    obtain ⟨chain, c, hchain, rfl⟩ := (contains_iff_encloses h).1 hid
    obtain ⟨a, ha, rfl⟩ := isDescendantOf_iff.1 hdesc
    rw [ancestors_eq_chain h hchain] at ha
    exact hchain.liesBelow ha
  · rintro ⟨c, hc, rfl, d, hd, rfl⟩
    exact isDescendantOf_of_mem_below h hc hd

/-! ## Paths -/

theorem pathTo?_eq (h : s.entries = t.entries) (hchain : s.Encloses chain c) :
    t.pathTo? c.id =
      some (chain.reverse ++ if c.isNode then [c.entry (chain.head?.map Entry.id)] else []) := by
  have hget := get?_of_mem (entry_mem h hchain.occurs)
  rw [Snapshot.entry_id] at hget
  rw [pathTo?, hget, Option.map_some, ancestors_eq_chain h hchain, Snapshot.isNode_entry]

theorem intercalate_append_slash {names : List String} (h : names ≠ []) :
    "/".intercalate names ++ "/" = String.join (names.map fun name => name ++ "/") := by
  induction names with
  | nil => exact absurd rfl h
  | cons name rest ih =>
    rw [List.map_cons, String.join_cons]
    cases rest with
    | nil => simp
    | cons next rest =>
      rw [String.intercalate_cons_cons, String.append_assoc, ih (List.cons_ne_nil _ _)]

theorem displayPath_eq {path : List (Entry α)} (hpath : t.pathTo? id = some path)
    (hne : path ≠ []) :
    t.displayPath id = String.join (path.map fun e => e.name ++ "/") := by
  rw [displayPath, hpath]
  have hnames : path.map Entry.name ≠ [] := by simpa using hne
  have hslash := intercalate_append_slash hnames
  rwa [List.map_map] at hslash

theorem displayPath_root (h : s.entries = t.entries) (hs : s.isNode = true) :
    t.displayPath s.id = s.name ++ "/" := by
  have hpath := pathTo?_eq h Snapshot.Encloses.top
  rw [if_pos hs] at hpath
  rw [displayPath_eq hpath (by simp)]
  simp [Snapshot.name_entry]

/-- In a folder, the path of a folder goes on with its name, and the path of a file is the path of
the folder. -/
theorem displayPath_child (h : s.entries = t.entries) {p : EntryId} (hc : s.Occurs (some p) c) :
    t.displayPath c.id =
      t.displayPath p ++ (if c.isNode then c.name ++ "/" else "") := by
  cases hc with
  | @child parent folder _ hfolder hc =>
    obtain ⟨chain, hchain, -⟩ := hfolder.exists_encloses
    have hpath := pathTo?_eq h hchain
    rw [if_pos (Snapshot.isNode_of_mem_children hc)] at hpath
    rw [displayPath_eq hpath (by simp), displayPath_eq (pathTo?_eq h (hchain.child hc)) (by simp)]
    cases c.isNode <;> simp [Snapshot.name_entry, String.append_assoc]

theorem isDescendantOf_eq_false_of_unknown (hid : t.contains id = false) (other : EntryId) :
    t.isDescendantOf id other = false ∧ t.isDescendantOf other id = false := by
  rw [Bool.eq_false_iff] at hid ⊢
  rw [Bool.eq_false_iff]
  exact ⟨fun hdesc => hid (contains_of_isDescendantOf hdesc).1,
    fun hdesc => hid (contains_of_isDescendantOf hdesc).2⟩

theorem pathTo?_eq_none (hid : t.contains id = false) : t.pathTo? id = none := by
  rw [Table.contains, Option.isSome_eq_false_iff, Option.isNone_iff_eq_none] at hid
  rw [pathTo?, hid, Option.map_none]

/-! ## All queries -/

/-- The answers of the tree `t` are read off the nesting of the snapshot `s`. -/
structure Reflects (t : Tree α) (s : Snapshot α) : Prop where
  contains_iff : ∀ id, t.contains id = true ↔ ∃ chain c, s.Encloses chain c ∧ c.id = id
  ancestors_eq : ∀ chain c, s.Encloses chain c → t.ancestors c.id = chain
  ancestors_root : t.ancestors s.id = []
  ancestors_last : ∀ chain c, s.Encloses chain c → c.id ≠ s.id → chain.getLast? = some t.root
  ancestors_step : ∀ id, t.ancestors id = (t.parent? id).elim [] fun p => p :: t.ancestors p.id
  depth_eq : ∀ chain c, s.Encloses chain c → t.depth c.id = chain.length
  descendant_iff : ∀ id ancestor, t.isDescendantOf id ancestor = true ↔ s.LiesBelow id ancestor
  descendant_irrefl : ∀ id, t.isDescendantOf id id = false
  descendant_trans : ∀ x y z, t.isDescendantOf x y = true → t.isDescendantOf y z = true →
    t.isDescendantOf x z = true
  /-- A folder stands at the end of its own path, a file does not. -/
  path_eq : ∀ chain c, s.Encloses chain c → t.pathTo? c.id =
    some (chain.reverse ++ if c.isNode then [c.entry (chain.head?.map Entry.id)] else [])
  display_root : t.displayPath s.id = s.name ++ "/"
  display_child : ∀ p c, s.Occurs (some p) c →
    t.displayPath c.id = t.displayPath p ++ if c.isNode then c.name ++ "/" else ""
  unknown : ∀ id, t.contains id = false → t.ancestors id = [] ∧ t.depth id = 0 ∧
    t.pathTo? id = none ∧ t.displayPath id = "" ∧
    ∀ other, t.isDescendantOf id other = false ∧ t.isDescendantOf other id = false

/-- Whatever is asked of a tree, the answer is that of the snapshot it was built from. -/
theorem queries_reflect_nesting (h : ofSnapshot s = .ok t) : t.Reflects s := by
  obtain ⟨hs, hentries⟩ := ofSnapshot_eq_ok_iff.1 h
  have hroot : t.root = s.entry none := root_eq hentries
  refine
    { contains_iff := fun id => contains_iff_encloses hentries
      ancestors_eq := fun chain c hchain => ancestors_eq_chain hentries hchain
      ancestors_root := ancestors_eq_chain hentries Snapshot.Encloses.top
      ancestors_last := ?_
      ancestors_step := ancestors_eq_parent? t
      depth_eq := fun chain c hchain => congrArg List.length (ancestors_eq_chain hentries hchain)
      descendant_iff := fun id ancestor => isDescendantOf_iff_liesBelow hentries
      descendant_irrefl := fun id => Bool.eq_false_iff.2 (not_isDescendantOf_self t id)
      descendant_trans := fun x y z => isDescendantOf_trans
      path_eq := fun chain c hchain => pathTo?_eq hentries hchain
      display_root := displayPath_root hentries hs
      display_child := fun p c hc => displayPath_child hentries hc
      unknown := ?_ }
  · intro chain c hchain hne
    rw [hroot]
    apply hchain.getLast?_eq
    rintro rfl
    cases hchain
    exact hne rfl
  · intro id hid
    have hpath := pathTo?_eq_none hid
    refine ⟨ancestors_eq_nil hid, ?_, hpath, ?_, isDescendantOf_eq_false_of_unknown hid⟩
    · rw [depth, ancestors_eq_nil hid, List.length_nil]
    · rw [displayPath, hpath]

theorem queries_reflect_nesting_threeDeep :
    ofSnapshot threeDeep = .ok threeDeepTree ∧ threeDeepTree.Reflects threeDeep ∧
      (threeDeepTree.ancestors "x").map Entry.id = ["b", "a", "root"] ∧
      threeDeep.LiesBelow "x" "a" ∧ ¬ threeDeep.LiesBelow "a" "x" ∧
      threeDeepTree.displayPath "x" = "Root/A/B/" := by
  have hbuilt : ofSnapshot threeDeep = .ok threeDeepTree := ofSnapshot_eq_ok_iff.2 ⟨rfl, rfl⟩
  have hreflects := queries_reflect_nesting hbuilt
  have hbelow : threeDeep.LiesBelow "x" "a" := (hreflects.descendant_iff "x" "a").1 rfl
  have habove : ¬ threeDeep.LiesBelow "a" "x" := by
    rw [← hreflects.descendant_iff]
    decide
  exact ⟨hbuilt, hreflects, rfl, hbelow, habove, by decide⟩

end Tree

end TreeBrowser
