import Mathlib.Data.List.Forall2
import TreeBrowser.Proofs.Json.Record
import TreeBrowser.Tree.Snapshot
import TreeBrowser.Workspace.EntryData

/-!
# Reading snapshots

When a value is read as a folder and when as a file, said by the fields that are found in it. Since
a folder that does not fit is tried as a file, a value can lose what it lists as children; it loses
nothing exactly when everything that is listed can be read.
-/

namespace TreeBrowser.Snapshot

open Json

variable {α : Type} {data? : Json → Option α}

/-! ## Fields -/

theorem ofElems?_eq_some_iff {elems : List Json} {children : List (Snapshot α)} :
    ofElems? data? elems = some children ↔
      List.Forall₂ (fun v c => ofJson? data? v = some c) elems children := by
  induction elems generalizing children with
  | nil => simp [ofElems?, eq_comm]
  | cons v rest ih =>
    rw [ofElems?, List.forall₂_cons_left_iff]
    simp only [Option.bind_eq_bind, Option.bind_eq_some_iff, Option.pure_def, Option.some.injEq,
      ih]
    constructor
    · rintro ⟨c, hc, children, hchildren, rfl⟩
      exact ⟨c, children, hc, hchildren, rfl⟩
    · rintro ⟨c, children, hc, hchildren, rfl⟩
      exact ⟨c, hc, children, hchildren, rfl⟩

theorem children?_eq_some_iff {v : Json} {children : List (Snapshot α)} :
    children? data? v = some children ↔
      ∃ elems, v = .arr elems ∧
        List.Forall₂ (fun v c => ofJson? data? v = some c) elems children := by
  cases v <;> simp [children?, ofElems?_eq_some_iff]

theorem membersChildren_eq (members : List (String × Json)) :
    membersChildren data? members = members.map fun m => (m.1, children? data? m.2) := by
  induction members with
  | nil => rfl
  | cons m rest ih => rw [membersChildren, ih, List.map_cons]

theorem zip_elemsChildren (fields : List String) (elems : List Json) :
    fields.zip (elemsChildren data? elems) = membersChildren data? (fields.zip elems) := by
  have helems : elemsChildren data? elems = elems.map (children? data?) := by
    induction elems with
    | nil => rfl
    | cons v rest ih => rw [elemsChildren, ih, List.map_cons]
  rw [helems, membersChildren_eq, List.zip_map_right]
  rfl

structure Header (data? : Json → Option α) (members : List (String × Json)) (id : EntryId)
    (name : String) (data : α) : Prop where
  id : find "id" members = .once (.str id)
  name : find "name" members = .once (.str name)
  data : ∃ v, find "data" members = .once v ∧ data? v = some data

theorem node?_eq_some_iff {members : List (String × Json)} {s : Snapshot α} :
    node? data? members (membersChildren data? members) = some s ↔
      ∃ id name data elems children, Header data? members id name data ∧
        find "children" members = .once (.arr elems) ∧
        List.Forall₂ (fun v c => ofJson? data? v = some c) elems children ∧
        s = .node id name data children := by
  unfold node?
  rw [membersChildren_eq, find_map, Found.required_map]
  simp only [Option.bind_eq_bind, Option.bind_eq_some_iff, Option.pure_def, Option.some.injEq,
    Found.required_eq_some_iff, str?_eq_some_iff, children?_eq_some_iff]
  constructor
  · rintro ⟨id, ⟨_, hid, rfl⟩, name, ⟨_, hname, rfl⟩, data, hdata, children,
      ⟨_, hchildren, elems, rfl, helems⟩, rfl⟩
    exact ⟨id, name, data, elems, children, ⟨hid, hname, hdata⟩, hchildren, helems, rfl⟩
  · rintro ⟨id, name, data, elems, children, ⟨hid, hname, hdata⟩, hchildren, helems, rfl⟩
    exact ⟨id, ⟨_, hid, rfl⟩, name, ⟨_, hname, rfl⟩, data, hdata, children,
      ⟨_, hchildren, elems, rfl, helems⟩, rfl⟩

theorem leaf?_eq_some_iff {members : List (String × Json)} {s : Snapshot α} :
    leaf? data? members = some s ↔
      ∃ id name data expandable, Header data? members id name data ∧
        (find "isExpandable" members).defaulted false bool? = some expandable ∧
        s = .leaf id name data expandable := by
  unfold leaf?
  simp only [Option.bind_eq_bind, Option.bind_eq_some_iff, Option.pure_def, Option.some.injEq,
    Found.required_eq_some_iff, str?_eq_some_iff]
  constructor
  · rintro ⟨id, ⟨_, hid, rfl⟩, name, ⟨_, hname, rfl⟩, data, hdata, expandable, hexpandable, rfl⟩
    exact ⟨id, name, data, expandable, ⟨hid, hname, hdata⟩, hexpandable, rfl⟩
  · rintro ⟨id, name, data, expandable, ⟨hid, hname, hdata⟩, hexpandable, rfl⟩
    exact ⟨id, ⟨_, hid, rfl⟩, name, ⟨_, hname, rfl⟩, data, hdata, expandable, hexpandable, rfl⟩

theorem ofJson?_obj_eq_some_iff {members : List (String × Json)} {s : Snapshot α} :
    ofJson? data? (.obj members) = some s ↔
      node? data? members (membersChildren data? members) = some s ∨
        node? data? members (membersChildren data? members) = none ∧
          leaf? data? members = some s := by
  rw [ofJson?]
  cases node? data? members (membersChildren data? members) <;> simp

/-! ## What is lost -/

mutual

/-- What an entry object in the value lists as its children, it holds when it is read as `s`. -/
inductive Keeps (data? : Json → Option α) : Json → Snapshot α → Prop
  | unlisted {members : List (String × Json)} {s : Snapshot α} :
    find "children" members = .missing → Keeps data? (.obj members) s
  | listed {members : List (String × Json)} {elems : List Json} {id : EntryId} {name : String}
      {data : α} {children : List (Snapshot α)} :
    find "children" members = .once (.arr elems) → KeepsAll data? elems children →
      Keeps data? (.obj members) (.node id name data children)
  | fields {elems : List Json} {s : Snapshot α} : Keeps data? (.arr elems) s

inductive KeepsAll (data? : Json → Option α) : List Json → List (Snapshot α) → Prop
  | nil : KeepsAll data? [] []
  | cons {v : Json} {rest : List Json} {s : Snapshot α} {children : List (Snapshot α)} :
    ofJson? data? v = some s → Keeps data? v s → KeepsAll data? rest children →
      KeepsAll data? (v :: rest) (s :: children)

end

/-- An entry object in the value that lists children lists them once, in an array, and each of them
can be read. -/
inductive ListsEntries (data? : Json → Option α) : Json → Prop
  | unlisted {members : List (String × Json)} :
    find "children" members = .missing → ListsEntries data? (.obj members)
  | listed {members : List (String × Json)} {elems : List Json} :
    find "children" members = .once (.arr elems) →
      (∀ v ∈ elems, ∃ c, ofJson? data? v = some c) → (∀ v ∈ elems, ListsEntries data? v) →
      ListsEntries data? (.obj members)
  | fields {elems : List Json} : ListsEntries data? (.arr elems)

mutual

theorem Keeps.listsEntries {v : Json} {s : Snapshot α} :
    Keeps data? v s → ListsEntries data? v
  | .unlisted h => .unlisted h
  | .listed h hall =>
    .listed h (fun v hv => (hall.listsEntries v hv).1) fun v hv => (hall.listsEntries v hv).2
  | .fields => .fields

theorem KeepsAll.listsEntries {elems : List Json} {children : List (Snapshot α)} :
    KeepsAll data? elems children →
      ∀ v ∈ elems, (∃ c, ofJson? data? v = some c) ∧ ListsEntries data? v
  | .nil, _, hv => absurd hv List.not_mem_nil
  | .cons hs hkeeps hall, v, hv => by
    rcases List.mem_cons.1 hv with rfl | hv
    · exact ⟨⟨_, hs⟩, hkeeps.listsEntries⟩
    · exact hall.listsEntries v hv

end

theorem exists_forall₂_ofJson? {elems : List Json}
    (h : ∀ v ∈ elems, ∃ c, ofJson? data? v = some c) :
    ∃ children, List.Forall₂ (fun v c => ofJson? data? v = some c) elems children := by
  induction elems with
  | nil => exact ⟨[], .nil⟩
  | cons v rest ih =>
    rw [List.forall_mem_cons] at h
    obtain ⟨c, hc⟩ := h.1
    obtain ⟨children, hchildren⟩ := ih h.2
    exact ⟨c :: children, .cons hc hchildren⟩

theorem keepsAll_of_forall₂ {elems : List Json} {children : List (Snapshot α)}
    (h : List.Forall₂ (fun v c => ofJson? data? v = some c) elems children)
    (hkeeps : ∀ v ∈ elems, ∀ c, ofJson? data? v = some c → Keeps data? v c) :
    KeepsAll data? elems children := by
  induction h with
  | nil => exact .nil
  | cons hc hrest ih =>
    rw [List.forall_mem_cons] at hkeeps
    exact .cons hc (hkeeps.1 _ hc) (ih hkeeps.2)

theorem ListsEntries.keeps {v : Json} (h : ListsEntries data? v) {s : Snapshot α}
    (hs : ofJson? data? v = some s) : Keeps data? v s := by
  induction h generalizing s with
  | unlisted hfind => exact .unlisted hfind
  | fields => exact .fields
  | @listed members elems hfind hfits _ ih =>
    rcases ofJson?_obj_eq_some_iff.1 hs with hnode | ⟨hnone, hleaf⟩
    · obtain ⟨id, name, data, elems', children, -, hfind', helems, rfl⟩ := node?_eq_some_iff.1 hnode
      rw [hfind] at hfind'
      cases hfind'
      exact .listed hfind (keepsAll_of_forall₂ helems fun v hv c hc => ih v hv hc)
    · -- What fits a file and lists readable children fits a folder as well.
      obtain ⟨id, name, data, -, hheader, -, -⟩ := leaf?_eq_some_iff.1 hleaf
      obtain ⟨children, helems⟩ := exists_forall₂_ofJson? hfits
      have hnode := node?_eq_some_iff.2 ⟨id, name, data, elems, children, hheader, hfind, helems, rfl⟩
      rw [hnone] at hnode
      cases hnode

/-- A value keeps everything that it lists as children, at every depth, exactly when it is refused
or all that is listed can be read. -/
theorem keeps_children_iff (data? : Json → Option α) (v : Json) :
    (∀ s, ofJson? data? v = some s → Keeps data? v s) ↔
      ofJson? data? v = none ∨ ListsEntries data? v := by
  constructor
  · intro h
    cases hs : ofJson? data? v with
    | none => exact Or.inl rfl
    | some s => exact Or.inr (h s hs).listsEntries
  · rintro (hnone | hlists) s hs
    · rw [hnone] at hs
      cases hs
    · exact hlists.keeps hs

def misfitBesideFile : Json :=
  let data : Json := .obj [("addedBy", .obj [("username", .str "ada"), ("displayName", .str "Ada")])]
  .obj [("id", .str "d"), ("name", .str "D"), ("data", data),
    ("children", .arr [.obj [("id", .str "x"), ("name", .str "X"), ("data", data)], .int 5])]

/-- The folder is read as a file, and the file in it is lost. -/
theorem children_lost_to_misfit :
    (∃ data, ofJson? WorkspaceEntry.ofJson? misfitBesideFile = some (.leaf "d" "D" data false)) ∧
      ¬ ∀ s, ofJson? WorkspaceEntry.ofJson? misfitBesideFile = some s →
        Keeps WorkspaceEntry.ofJson? misfitBesideFile s := by
  have hread : ∃ data, ofJson? WorkspaceEntry.ofJson? misfitBesideFile =
      some (.leaf "d" "D" data false) :=
    ⟨⟨⟨"ada", "Ada"⟩, none, none, .folder ⟨0, 0, 0, 0⟩⟩, rfl⟩
  refine ⟨hread, fun hkeeps => ?_⟩
  obtain ⟨data, hdata⟩ := hread
  cases hkeeps _ hdata with
  | unlisted hfind => cases hfind

end TreeBrowser.Snapshot
