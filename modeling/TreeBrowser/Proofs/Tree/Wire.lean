import TreeBrowser.Proofs.Json.Wire
import TreeBrowser.Proofs.Tree.Decoding

/-!
# The wire form of snapshots

Snapshots are read back as they were written when their data are. A written file lists no children,
so it is never read as a folder, and the children of a written folder are read one by one.
-/

namespace TreeBrowser.Snapshot

open Json

variable {α : Type} {data? : Json → Option α} {dataJson : α → Json}

/-! ## Reading back -/

mutual

theorem ofJson?_toJson (hdata : Wire data? dataJson) (s : Snapshot α) :
    ofJson? data? (s.toJson dataJson) = some s := by
  cases s with
  | node id name data children =>
    rw [toJson, ofJson?_obj_eq_some_iff]
    refine Or.inl (node?_eq_some_iff.2 ⟨id, name, data, listJson dataJson children, children,
      ⟨?_, ?_, dataJson data, ?_, hdata.read_write data⟩, ?_, forall₂_listJson hdata children, rfl⟩)
    all_goals simp
  | leaf id name data expandable =>
    have hheader : Header data? [("id", .str id), ("name", .str name), ("data", dataJson data),
        ("isExpandable", .bool expandable)] id name data := by
      refine ⟨?_, ?_, dataJson data, ?_, hdata.read_write data⟩
      all_goals simp
    rw [toJson, ofJson?_obj_eq_some_iff]
    refine Or.inr ⟨?_, leaf?_eq_some_iff.2 ⟨id, name, data, expandable, hheader, ?_, rfl⟩⟩
    · -- The folder is tried first; it fails for want of children.
      rw [Option.eq_none_iff_forall_ne_some]
      rintro s hnode
      obtain ⟨-, -, -, elems, -, -, hchildren, -⟩ := node?_eq_some_iff.1 hnode
      simp at hchildren
    · simp [Found.defaulted, bool?]

theorem forall₂_listJson (hdata : Wire data? dataJson) (children : List (Snapshot α)) :
    List.Forall₂ (fun v c => ofJson? data? v = some c) (listJson dataJson children) children := by
  cases children with
  | nil => exact .nil
  | cons c rest => exact .cons (ofJson?_toJson hdata c) (forall₂_listJson hdata rest)

end

mutual

theorem exact_toJson (hdata : Wire data? dataJson) (s : Snapshot α) :
    (s.toJson dataJson).Exact := by
  cases s with
  | node id name data children =>
    exact ⟨trivial, trivial, hdata.exact data, exactElems_listJson hdata children, trivial⟩
  | leaf id name data expandable =>
    exact ⟨trivial, trivial, hdata.exact data, trivial, trivial⟩

theorem exactElems_listJson (hdata : Wire data? dataJson) (children : List (Snapshot α)) :
    ExactElems (listJson dataJson children) := by
  cases children with
  | nil => trivial
  | cons c rest => exact ⟨exact_toJson hdata c, exactElems_listJson hdata rest⟩

end

/-! ## Depth -/

theorem exists_members_of_ofJson? {v : Json} {s : Snapshot α} (h : ofJson? data? v = some s) :
    ∃ members, depthMembers members < v.depth ∧
      (node? data? members (membersChildren data? members) = some s ∨
        leaf? data? members = some s) := by
  cases v with
  | obj members =>
    refine ⟨members, Nat.lt_succ_self _, ?_⟩
    obtain hnode | ⟨-, hleaf⟩ := ofJson?_obj_eq_some_iff.1 h
    · exact Or.inl hnode
    · exact Or.inr hleaf
  | arr elems =>
    rw [ofJson?] at h
    split at h
    · rename_i hlength
      -- The two kinds name the fourth element differently.
      rw [zip_elemsChildren] at h
      have hdeeper {fields : List String} (hfields : fields.length = 4) :
          depthMembers (fields.zip elems) < (Json.arr elems).depth :=
        depthMembers_lt_of_record? (if_pos (hfields ▸ hlength))
      rcases hnode : node? data? (nodeFields.zip elems)
          (membersChildren data? (nodeFields.zip elems)) with - | folder
      · rw [hnode] at h
        exact ⟨_, hdeeper rfl, Or.inr h⟩
      · rw [hnode] at h
        exact ⟨_, hdeeper rfl, Or.inl (hnode.trans h)⟩
    · cases h
  | _ => cases h

theorem Header.depth_le (hdata : Wire data? dataJson) {members : List (String × Json)} {id : EntryId}
    {name : String} {data : α} (h : Header data? members id name data) :
    (dataJson data).depth ≤ depthMembers members := by
  obtain ⟨v, hv, hread⟩ := h.data
  exact Nat.le_trans (hdata.depth_le hread) (depth_le_depthMembers hv)

mutual

theorem depth_toJson_le (hdata : Wire data? dataJson) (s : Snapshot α) {v : Json}
    (h : ofJson? data? v = some s) : (s.toJson dataJson).depth ≤ v.depth := by
  obtain ⟨members, hdeeper, hfields⟩ := exists_members_of_ofJson? h
  cases s with
  | node id name data children =>
    rcases hfields with hnode | hleaf
    · obtain ⟨_, _, _, elems, _, hheader, hfind, hchildren, heq⟩ := node?_eq_some_iff.1 hnode
      cases heq
      have hdata' := hheader.depth_le hdata
      have helems := depth_le_depthMembers hfind
      have hlist := depthElems_listJson_le hdata children hchildren
      rw [depth] at helems
      simp only [toJson, depth, depthMembers]
      omega
    · obtain ⟨_, _, _, _, _, _, heq⟩ := leaf?_eq_some_iff.1 hleaf
      cases heq
  | leaf id name data expandable =>
    have hheader : ∃ id name, Header data? members id name data := by
      rcases hfields with hnode | hleaf
      · obtain ⟨_, _, _, _, _, _, _, _, heq⟩ := node?_eq_some_iff.1 hnode
        cases heq
      · obtain ⟨_, _, _, _, hheader, _, heq⟩ := leaf?_eq_some_iff.1 hleaf
        cases heq
        exact ⟨_, _, hheader⟩
    obtain ⟨_, _, hheader⟩ := hheader
    have hdata' := hheader.depth_le hdata
    simp only [toJson, depth, depthMembers]
    omega

theorem depthElems_listJson_le (hdata : Wire data? dataJson) (children : List (Snapshot α))
    {elems : List Json} (h : List.Forall₂ (fun v c => ofJson? data? v = some c) elems children) :
    depthElems (listJson dataJson children) ≤ depthElems elems := by
  cases h with
  | nil => exact Nat.zero_le _
  | cons hfirst hrest =>
    rename_i v c elems rest
    have hle := depth_toJson_le hdata c hfirst
    have hle' := depthElems_listJson_le hdata rest hrest
    rw [listJson, depthElems, depthElems]
    omega

end

theorem wire (hdata : Wire data? dataJson) : Wire (ofJson? data?) (toJson dataJson) where
  read_write := ofJson?_toJson hdata
  exact := exact_toJson hdata
  depth_le := depth_toJson_le hdata _

end TreeBrowser.Snapshot
