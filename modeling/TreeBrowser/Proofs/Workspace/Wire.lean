import TreeBrowser.Proofs.Json.Wire
import TreeBrowser.Proofs.Workspace.EntryKind
import TreeBrowser.Workspace.Metadata

/-!
# The wire form of workspace data

Users, stages, entry data and metadata are read back as they were written. What is written of a
folder has no address, so it is never read as a file.
-/

namespace TreeBrowser

open Json

/-! ## Users -/

theorem PartialUser.wire : Wire PartialUser.ofJson? PartialUser.toJson where
  read_write user := by simp [ofJson?, toJson, record?, Found.required, str?]
  exact user := by simp [toJson, Exact, ExactMembers]
  depth_le {v user} hread := by
    simp only [ofJson?, Option.bind_eq_bind, Option.bind_eq_some_iff] at hread
    obtain ⟨members, hmembers, -⟩ := hread
    exact Nat.succ_le_of_lt (Nat.lt_of_le_of_lt (Nat.zero_le _) (depthMembers_lt_of_record? hmembers))

/-! ## Stages -/

namespace ProcessingStage

theorem wire {tag? : Json → Option Tag} (htag : ∀ name, Tag.ofName? name = tag? (.str name)) :
    Wire (ofJson? tag?) toJson where
  read_write stage := by
    have hprocessing : tag? (.str "processing") = some .processing := (htag _).symm
    have hprocessed : tag? (.str "processed") = some .processed := (htag _).symm
    have hfailed : tag? (.str "failed") = some .failed := (htag _).symm
    cases stage with
    | processing tasksRemaining note =>
      have hnote := Wire.str.optional_write (nofun) note
      simp [toJson, ofJson?, Found.required, hprocessing, ofMembers?, processing?,
        Wire.uint32.read_write, hnote]
    | processed => simp [toJson, ofJson?, Found.required, hprocessed, ofMembers?]
    | failed => simp [toJson, ofJson?, Found.required, hfailed, ofMembers?]
  exact stage := by
    cases stage with
    | processing tasksRemaining note =>
      cases note <;> simp [toJson, Exact, ExactMembers, optionalMember, Wire.uint32.exact]
    | processed => simp [toJson, Exact, ExactMembers]
    | failed => simp [toJson, Exact, ExactMembers]
  depth_le {v stage} hread := by
    have hone : stage.toJson.depth = 1 := by
      cases stage with
      | processing tasksRemaining note =>
        cases note <;> simp [toJson, depth, depthMembers, optionalMember, ofUInt32]
      | processed => rfl
      | failed => rfl
    rw [hone]
    cases v with
    | obj members => exact Nat.succ_le_succ (Nat.zero_le _)
    | arr elems => exact Nat.succ_le_succ (Nat.zero_le _)
    | _ => cases hread

theorem wire_named : Wire (ofJson? Tag.named?) toJson :=
  wire fun _ => rfl

theorem wire_namedOrNumbered : Wire (ofJson? Tag.namedOrNumbered?) toJson :=
  wire fun _ => rfl

end ProcessingStage

/-! ## Entry data -/

theorem FileData.not_held_of_missing {members : List (String × Json)}
    (h : find "uri" members = .missing) : ¬ ∃ data, FileData.Held members data := by
  rintro ⟨data, hdata⟩
  rw [hdata.uri] at h
  cases h

theorem EntryContent.exactMembers_toMembers (kind : EntryContent) : ExactMembers kind.toMembers := by
  cases kind with
  | file data =>
    simp [toMembers, FileData.toMembers, exactMembers_optionalMember, ExactMembers, Exact,
      ProcessingStage.wire_named.exact, Wire.uint64.exact]
  | folder data => simp [toMembers, FolderData.toMembers, ExactMembers, Wire.uint64.exact]

theorem EntryContent.depthMembers_toMembers_le {members : List (String × Json)} {kind : EntryContent}
    (h : EntryContent.ofMembers? members = some kind) :
    depthMembers kind.toMembers ≤ depthMembers members := by
  obtain ⟨data, hdata, rfl⟩ | ⟨-, data, -, rfl⟩ := EntryContent.ofMembers?_eq_some_iff.1 h
  · obtain ⟨v, hv, hstage⟩ := hdata.stage
    have hdeep := ProcessingStage.wire_namedOrNumbered.depth_le hstage
    have hsize := depthMembers_optionalMember ofUInt64 (fun _ => rfl) "size" data.size
    calc depthMembers (EntryContent.file data).toMembers = data.stage.toJson.depth := by
          simp [toMembers, FileData.toMembers, depthMembers, depth, hsize]
      _ ≤ v.depth := hdeep
      _ ≤ depthMembers members := depth_le_depthMembers hv
  · exact Nat.zero_le _

namespace WorkspaceEntry

theorem wire : Wire ofJson? toJson where
  read_write entry := by
    obtain ⟨addedBy, addedOn, parentId, kind⟩ := entry
    have haddedOn := Wire.uint64.optional_write (nofun) addedOn
    have hparentId := Wire.str.optional_write (nofun) parentId
    cases kind with
    | file data =>
      have hsize := Wire.uint64.optional_write (nofun) data.size
      refine ofJson?_obj_eq_some_iff.2 ⟨⟨⟨_, ?_, PartialUser.wire.read_write _⟩, ?_, ?_⟩,
        EntryContent.ofMembers?_eq_some_iff.2 (Or.inl ⟨data,
          ⟨⟨_, ?_, ProcessingStage.wire_namedOrNumbered.read_write _⟩, ?_, ?_, ?_⟩, rfl⟩)⟩
      all_goals simp [EntryContent.toMembers, FileData.toMembers, haddedOn, hparentId, hsize]
    | folder data =>
      -- The file is tried first; it fails for want of an address.
      refine ofJson?_obj_eq_some_iff.2 ⟨⟨⟨_, ?_, PartialUser.wire.read_write _⟩, ?_, ?_⟩,
        EntryContent.ofMembers?_eq_some_iff.2 (Or.inr ⟨FileData.not_held_of_missing ?_,
          data, ⟨?_, ?_, ?_, ?_⟩, rfl⟩)⟩
      all_goals simp [EntryContent.toMembers, FolderData.toMembers, haddedOn, hparentId,
        Found.defaulted, Wire.uint64.read_write]
  exact entry := by
    have hkind := entry.kind.exactMembers_toMembers
    simp [toJson, Exact, ExactMembers, exactMembers_append, exactMembers_optionalMember, hkind,
      PartialUser.wire.exact, Wire.uint64.exact]
  depth_le {v entry} hread := by
    cases v with
    | obj members =>
      obtain ⟨⟨⟨u, hu, haddedBy⟩, -, -⟩, hkind⟩ := ofJson?_obj_eq_some_iff.1 hread
      have huser := PartialUser.wire.depth_le haddedBy
      have hheld := depth_le_depthMembers hu
      have hcontent := EntryContent.depthMembers_toMembers_le hkind
      have haddedOn := depthMembers_optionalMember ofUInt64 (fun _ => rfl) "addedOn" entry.addedOn
      have hparentId := depthMembers_optionalMember .str (fun _ => rfl) "maybeParentId" entry.parentId
      rw [toJson, depth, depth]
      simp only [depthMembers_append, depthMembers, haddedOn, hparentId]
      omega
    | _ => cases hread

end WorkspaceEntry

/-! ## Metadata -/

namespace WorkspaceMetadata

theorem ofMembers?_toMembers (m : WorkspaceMetadata) (after : List (String × Json))
    (h : ∀ key ∈ fields, find key after = .missing) :
    ofMembers? (m.toMembers ++ after) = some m := by
  have hfollowers := (Wire.list PartialUser.wire).read_write m.followers
  simp only [fields, List.forall_mem_cons] at h
  simp [ofMembers?, toMembers, Found.required, Found.defaulted, str?, bool?, h,
    PartialUser.wire.read_write, hfollowers]

theorem exactMembers_toMembers (m : WorkspaceMetadata) : ExactMembers m.toMembers := by
  have hfollowers := (Wire.list PartialUser.wire).exact m.followers
  simp [toMembers, ExactMembers, Exact, PartialUser.wire.exact] at hfollowers ⊢
  exact hfollowers

theorem depthMembers_toMembers_le {members : List (String × Json)} {m : WorkspaceMetadata}
    (h : ofMembers? members = some m) : depthMembers m.toMembers ≤ depthMembers members := by
  simp only [ofMembers?, Option.bind_eq_bind, Option.bind_eq_some_iff, Option.pure_def,
    Option.some.injEq, Found.required_eq_some_iff, Found.defaulted_eq_some_iff] at h
  obtain ⟨id, -, name, -, isPublic, -, tagColor, -, owner, ⟨u, hu, howner⟩, creator,
    ⟨u', hu', hcreator⟩, followers, hfollowers, rfl⟩ := h
  have howner' := PartialUser.wire.depth_le howner
  have hcreator' := PartialUser.wire.depth_le hcreator
  have hle := depth_le_depthMembers hu
  have hle' := depth_le_depthMembers hu'
  have hdepth : (Json.arr (followers.map PartialUser.toJson)).depth ≤ depthMembers members := by
    obtain ⟨-, rfl⟩ | ⟨v, hv, hlist⟩ := hfollowers
    · -- A list that is left out is written as an empty one, no deeper than the owner.
      have hone : owner.toJson.depth = 1 := rfl
      show 1 ≤ depthMembers members
      omega
    · have hlist' := (Wire.list PartialUser.wire).depth_le hlist
      exact Nat.le_trans hlist' (depth_le_depthMembers hv)
  have hstr (text : String) : (Json.str text).depth = 0 := rfl
  have hbool (value : Bool) : (Json.bool value).depth = 0 := rfl
  simp only [toMembers, depthMembers, hstr, hbool]
  omega

theorem wire : Wire ofJson? toJson where
  read_write m := by
    have hread := ofMembers?_toMembers m [] (fun _ _ => find_nil)
    rwa [List.append_nil] at hread
  exact m := exactMembers_toMembers m
  depth_le {v m} hread := by
    obtain ⟨members, hmembers, hm⟩ := Option.bind_eq_some_iff.1 hread
    have hdeeper := depthMembers_lt_of_record? hmembers
    have hle := depthMembers_toMembers_le hm
    rw [toJson, depth]
    omega

end WorkspaceMetadata

end TreeBrowser
