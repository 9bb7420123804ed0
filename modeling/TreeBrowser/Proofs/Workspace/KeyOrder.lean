import TreeBrowser.Proofs.Json.KeyOrder
import TreeBrowser.Proofs.Workspace.RoundTrip

/-!
# Readers that ignore the order of keys

Everything that is sent or kept is read from fields, some of them more than once: a stage looks for
its type first and for its other fields after that, the data of an entry are tried as those of a
file and then as those of a folder, an entry as a folder and then as a file. None of this depends
on where a field stands, so a reordered document is read as the document is.
-/

namespace TreeBrowser

open Json

theorem PartialUser.ignoresKeyOrder : IgnoresKeyOrder PartialUser.ofJson? := by
  refine ignoresKeyOrder_record? (fun h => ?_) _
  simp only [(h _).required ignoresKeyOrder_str?]

namespace ProcessingStage

theorem Tag.ignoresKeyOrder_named? : IgnoresKeyOrder Tag.named? :=
  ignoresKeyOrder_of_scalars (fun _ => rfl) fun _ => rfl

theorem Tag.ignoresKeyOrder_namedOrNumbered? : IgnoresKeyOrder Tag.namedOrNumbered? :=
  ignoresKeyOrder_of_scalars (fun _ => rfl) fun _ => rfl

theorem processing?_eq_of_agree {members members' : List (String × Json)}
    (h : Agree members members') : processing? members = processing? members' := by
  simp only [processing?, (h _).required ignoresKeyOrder_uint32?,
    (h _).optional ignoresKeyOrder_str?]

theorem ofMembers?_eq_of_agree {members members' : List (String × Json)}
    (h : Agree members members') (tag : Tag) :
    ofMembers? members tag = ofMembers? members' tag := by
  cases tag with
  | processing => exact processing?_eq_of_agree h
  | processed | failed => rfl

theorem ofElems?_eq_of_reordered {elems elems' : List Json} (h : ReorderedElems elems elems')
    (tag : Tag) : ofElems? elems tag = ofElems? elems' tag := by
  have hempty : elems.isEmpty = elems'.isEmpty := by cases h <;> rfl
  cases tag with
  | processing =>
    simp only [ofElems?, h.length_eq]
    split
    · exact processing?_eq_of_agree (h.zip _).agree
    · rfl
  | processed | failed => simp only [ofElems?, hempty]

theorem ignoresKeyOrder {tag? : Json → Option Tag} (htag : IgnoresKeyOrder tag?) :
    IgnoresKeyOrder (ofJson? tag?) := by
  intro v v' h
  cases h with
  | refl => rfl
  | arr helems =>
    cases helems with
    | nil => rfl
    | cons hv hrest => simp only [ofJson?, htag hv, ofElems?_eq_of_reordered hrest]
  | obj hmembers hperm =>
    have hagree := Agree.of_reorderedMembers_perm hmembers hperm
    simp only [ofJson?, (hagree _).required htag, ofMembers?_eq_of_agree hagree]

end ProcessingStage

theorem EntryContent.ofMembers?_eq_of_agree {members members' : List (String × Json)}
    (h : Agree members members') :
    EntryContent.ofMembers? members = EntryContent.ofMembers? members' := by
  have hstage := ProcessingStage.ignoresKeyOrder
    ProcessingStage.Tag.ignoresKeyOrder_namedOrNumbered?
  simp only [EntryContent.ofMembers?, FileData.ofMembers?, FolderData.ofMembers?,
    (h _).required hstage, (h _).required ignoresKeyOrder_str?,
    (h _).optional ignoresKeyOrder_uint64?, (h _).defaulted ignoresKeyOrder_uint64?]

namespace WorkspaceEntry

theorem ignoresKeyOrder : IgnoresKeyOrder WorkspaceEntry.ofJson? := by
  refine ignoresKeyOrder_object? fun h => ?_
  simp only [(h _).required PartialUser.ignoresKeyOrder, (h _).optional ignoresKeyOrder_uint64?,
    (h _).optional ignoresKeyOrder_str?, EntryContent.ofMembers?_eq_of_agree h]

theorem ignoresKeyOrder_readable : IgnoresKeyOrder WorkspaceEntry.readable := by
  intro v v' h
  cases h with
  | refl => rfl
  | arr helems => exact helems.readable_eq
  | @obj members between members' hmembers hperm =>
    show members.all _ = members'.all _
    rw [hmembers.all_eq, hperm.all_eq]
    intro key v v' h
    exact congrArg (key == "addedBy" || ·) h.readable_eq

end WorkspaceEntry

namespace Snapshot

variable {α : Type} {data? : Json → Option α}

theorem leaf?_eq_of_agree (hdata : IgnoresKeyOrder data?) {members members' : List (String × Json)}
    (h : Agree members members') : leaf? data? members = leaf? data? members' := by
  simp only [leaf?, (h _).required ignoresKeyOrder_str?, (h _).required hdata,
    (h _).defaulted ignoresKeyOrder_bool?]

theorem node?_eq_of_agree (hdata : IgnoresKeyOrder data?) {members members' : List (String × Json)}
    (h : Agree members members') {children children' : List (String × Option (List (Snapshot α)))}
    (hchildren : find "children" children = find "children" children') :
    node? data? members children = node? data? members' children' := by
  simp only [node?, (h _).required ignoresKeyOrder_str?, (h _).required hdata, hchildren]

mutual

theorem ofJson?_eq_of_reordered (hdata : IgnoresKeyOrder data?) {v v' : Json} :
    v.Reordered v' → ofJson? data? v = ofJson? data? v'
  | .refl _ => rfl
  | .arr helems => by
    have hchildren := elemsChildren_eq_of_reordered hdata helems
    simp only [ofJson?, helems.length_eq, hchildren,
      node?_eq_of_agree hdata (helems.zip nodeFields).agree rfl,
      leaf?_eq_of_agree hdata (helems.zip leafFields).agree]
  | @Reordered.obj _ between members' hmembers hperm => by
    have hagree := Agree.of_reorderedMembers_perm hmembers hperm
    have hchildren : find "children" (membersChildren data? between) =
        find "children" (membersChildren data? members') := by
      rw [membersChildren_eq, membersChildren_eq]
      exact find_perm (hperm.map _)
    rw [ofJson?, ofJson?, membersChildren_eq_of_reordered hdata hmembers,
      node?_eq_of_agree hdata hagree hchildren, leaf?_eq_of_agree hdata hagree]

theorem children?_eq_of_reordered (hdata : IgnoresKeyOrder data?) {v v' : Json} :
    v.Reordered v' → children? data? v = children? data? v'
  | .refl _ => rfl
  | .arr helems => ofElems?_eq_of_reordered hdata helems
  | .obj _ _ => rfl

theorem ofElems?_eq_of_reordered (hdata : IgnoresKeyOrder data?) {elems elems' : List Json} :
    ReorderedElems elems elems' → ofElems? data? elems = ofElems? data? elems'
  | .nil => rfl
  | .cons hv hrest => by
    rw [ofElems?, ofElems?, ofJson?_eq_of_reordered hdata hv, ofElems?_eq_of_reordered hdata hrest]

theorem elemsChildren_eq_of_reordered (hdata : IgnoresKeyOrder data?) {elems elems' : List Json} :
    ReorderedElems elems elems' → elemsChildren data? elems = elemsChildren data? elems'
  | .nil => rfl
  | .cons hv hrest => by
    rw [elemsChildren, elemsChildren, children?_eq_of_reordered hdata hv,
      elemsChildren_eq_of_reordered hdata hrest]

theorem membersChildren_eq_of_reordered (hdata : IgnoresKeyOrder data?)
    {members members' : List (String × Json)} : ReorderedMembers members members' →
      membersChildren data? members = membersChildren data? members'
  | .nil => rfl
  | .cons hv hrest => by
    rw [membersChildren, membersChildren, children?_eq_of_reordered hdata hv,
      membersChildren_eq_of_reordered hdata hrest]

end

theorem ignoresKeyOrder (hdata : IgnoresKeyOrder data?) : IgnoresKeyOrder (ofJson? data?) :=
  fun _ _ h => ofJson?_eq_of_reordered hdata h

end Snapshot

theorem WorkspaceMetadata.ofMembers?_eq_of_agree {members members' : List (String × Json)}
    (h : Agree members members') :
    WorkspaceMetadata.ofMembers? members = WorkspaceMetadata.ofMembers? members' := by
  simp only [WorkspaceMetadata.ofMembers?, (h _).required ignoresKeyOrder_str?,
    (h _).defaulted ignoresKeyOrder_bool?, (h _).defaulted ignoresKeyOrder_str?,
    (h _).required PartialUser.ignoresKeyOrder, (h _).defaulted PartialUser.ignoresKeyOrder.list?]

theorem WorkspaceMetadata.ignoresKeyOrder : IgnoresKeyOrder WorkspaceMetadata.ofJson? :=
  ignoresKeyOrder_record? WorkspaceMetadata.ofMembers?_eq_of_agree _

theorem MissingEndpoint.ignoresKeyOrder : IgnoresKeyOrder MissingEndpoint.ofJson? :=
  ignoresKeyOrder_caseName?.bind _

theorem Settings.ignoresKeyOrder : IgnoresKeyOrder Settings.ofJson? := by
  refine ignoresKeyOrder_record? (fun h => ?_) _
  simp only [(h _).defaulted ignoresKeyOrder_str?, (h _).defaulted ignoresKeyOrder_bool?,
    (h _).defaulted MissingEndpoint.ignoresKeyOrder, (h _).optional ignoresKeyOrder_str?]

theorem WorkspaceSnapshot.ignoresKeyOrder : IgnoresKeyOrder WorkspaceSnapshot.ofJson? := by
  refine ignoresKeyOrder_object? fun h => ?_
  simp only [WorkspaceMetadata.ofMembers?_eq_of_agree h,
    (h _).required (Snapshot.ignoresKeyOrder WorkspaceEntry.ignoresKeyOrder)]

/-! ## Documents -/

/-- Texts that write the same value up to the order of keys, at whatever depth, are the same
workspace, or are refused for the same reason: as texts, or for the same fault of their trees. They
hold the same entry, the same data, stage, metadata and settings, too. -/
theorem reordered_texts_read_alike {v v' : Json} {text text' : String} (h : v.Reordered v')
    (htext : Json.ofText? text = some v) (htext' : Json.ofText? text' = some v') :
    Workspace.ofText text = Workspace.ofText text' ∧
    Snapshot.ofText? WorkspaceEntry.ofJson? text = Snapshot.ofText? WorkspaceEntry.ofJson? text' ∧
    WorkspaceEntry.ofText? text = WorkspaceEntry.ofText? text' ∧
    ProcessingStage.ofText? text = ProcessingStage.ofText? text' ∧
    WorkspaceMetadata.ofText? text = WorkspaceMetadata.ofText? text' ∧
    Settings.ofText? text = Settings.ofText? text' := by
  have htexts : ReorderedTexts text text' := ⟨v, v', htext, htext', h⟩
  refine ⟨?_, ?_, ?_, ?_, ?_, ?_⟩
  · rw [Workspace.ofText, Workspace.ofText,
      WorkspaceSnapshot.ignoresKeyOrder.ofWholeDocument? htexts]
  · exact (Snapshot.ignoresKeyOrder WorkspaceEntry.ignoresKeyOrder).ofWholeDocument? htexts
  · exact WorkspaceEntry.ignoresKeyOrder.filter_ofDocument?
      WorkspaceEntry.ignoresKeyOrder_readable htexts
  · exact (ProcessingStage.ignoresKeyOrder
      ProcessingStage.Tag.ignoresKeyOrder_named?).ofWholeDocument? htexts
  · exact WorkspaceMetadata.ignoresKeyOrder.ofDocument? htexts
  · exact Settings.ignoresKeyOrder.ofDocument? htexts

theorem annotated_backwards_read_alike :
    ∃ w : Workspace, w.toSnapshot = Workspace.annotated ∧
      Workspace.ofText Workspace.annotated.toJson.backwards.toText = .ok w := by
  have htree : Workspace.annotated.rootNode.isNode = true ∧
      Workspace.annotated.rootNode.ids.Nodup :=
    ⟨rfl, by decide⟩
  obtain ⟨t, ht⟩ := Tree.exists_ofSnapshot_iff.2 htree
  let w : Workspace := ⟨Workspace.annotated.metadata, t⟩
  have hw : w.toSnapshot = Workspace.annotated :=
    Workspace.toSnapshot_of_ofSnapshot (Workspace.ofSnapshot_eq_ok_iff.2 ⟨rfl, ht⟩)
  have hexact := WorkspaceSnapshot.wire.exact Workspace.annotated
  have hread := Workspace.ofText_toText w (by rw [hw]; decide)
  rw [hw] at hread
  obtain ⟨halike, -⟩ := reordered_texts_read_alike (reordered_backwards _)
    (ofText?_toText hexact) (ofText?_toText (exact_backwards _ hexact))
  exact ⟨w, hw, halike.symm.trans hread⟩

end TreeBrowser
