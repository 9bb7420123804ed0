import TreeBrowser.Proofs.Json.Record
import TreeBrowser.Workspace.EntryData

/-!
# Files and folders among entry data

When the data of an entry are those of a file and when those of a folder, said by the fields that
are found. All fields of a folder may be missing, so data with the address of a file are taken for
a folder whenever something else about the file does not fit.
-/

namespace TreeBrowser

open Json

variable {members : List (String × Json)}

/-! ## Fields that fit -/

structure FileData.Held (members : List (String × Json)) (data : FileData) : Prop where
  stage : ∃ v, find "processingStage" members = .once v ∧
    ProcessingStage.ofJson? ProcessingStage.Tag.namedOrNumbered? v = some data.stage
  uri : find "uri" members = .once (.str data.uri)
  mimeType : find "mimeType" members = .once (.str data.mimeType)
  size : (find "size" members).optional uint64? = some data.size

theorem FileData.ofMembers?_eq_some_iff {data : FileData} :
    FileData.ofMembers? members = some data ↔ FileData.Held members data := by
  unfold ofMembers?
  simp only [Option.bind_eq_bind, Option.bind_eq_some_iff, Option.pure_def, Option.some.injEq,
    Found.required_eq_some_iff, str?_eq_some_iff]
  constructor
  · rintro ⟨stage, hstage, uri, ⟨_, huri, rfl⟩, mimeType, ⟨_, hmimeType, rfl⟩, size, hsize, rfl⟩
    exact ⟨hstage, huri, hmimeType, hsize⟩
  · rintro ⟨hstage, huri, hmimeType, hsize⟩
    exact ⟨_, hstage, _, ⟨_, huri, rfl⟩, _, ⟨_, hmimeType, rfl⟩, _, hsize, rfl⟩

structure FolderData.Held (members : List (String × Json)) (data : FolderData) : Prop where
  leafCount : (find "descendantsLeafCount" members).defaulted 0 uint64? = some data.leafCount
  nodeCount : (find "descendantsNodeCount" members).defaulted 0 uint64? = some data.nodeCount
  processingTaskCount : (find "descendantsProcessingTaskCount" members).defaulted 0 uint64? =
    some data.processingTaskCount
  failedCount : (find "descendantsFailedCount" members).defaulted 0 uint64? = some data.failedCount

theorem FolderData.ofMembers?_eq_some_iff {data : FolderData} :
    FolderData.ofMembers? members = some data ↔ FolderData.Held members data := by
  unfold ofMembers?
  simp only [Option.bind_eq_bind, Option.bind_eq_some_iff, Option.pure_def, Option.some.injEq]
  constructor
  · rintro ⟨leafCount, hleaf, nodeCount, hnode, taskCount, htask, failedCount, hfailed, rfl⟩
    exact ⟨hleaf, hnode, htask, hfailed⟩
  · rintro ⟨hleaf, hnode, htask, hfailed⟩
    exact ⟨_, hleaf, _, hnode, _, htask, _, hfailed, rfl⟩

theorem EntryContent.ofMembers?_eq_some_iff {kind : EntryContent} :
    EntryContent.ofMembers? members = some kind ↔
      (∃ data, FileData.Held members data ∧ kind = .file data) ∨
        (¬ ∃ data, FileData.Held members data) ∧
          ∃ data, FolderData.Held members data ∧ kind = .folder data := by
  simp only [← FileData.ofMembers?_eq_some_iff, ← FolderData.ofMembers?_eq_some_iff, ofMembers?]
  cases FileData.ofMembers? members with
  | some data => simp [eq_comm]
  | none =>
    cases FolderData.ofMembers? members with
    | some data => simp [eq_comm]
    | none => simp

namespace WorkspaceEntry

/-- The members hold what the entries of files and folders share. -/
structure HeldShared (members : List (String × Json)) (entry : WorkspaceEntry) : Prop where
  addedBy : ∃ v, find "addedBy" members = .once v ∧ PartialUser.ofJson? v = some entry.addedBy
  addedOn : (find "addedOn" members).optional uint64? = some entry.addedOn
  parentId : (find "maybeParentId" members).optional str? = some entry.parentId

theorem ofJson?_obj_eq_some_iff {entry : WorkspaceEntry} :
    ofJson? (.obj members) = some entry ↔
      HeldShared members entry ∧ EntryContent.ofMembers? members = some entry.kind := by
  unfold ofJson?
  simp only [object?, Option.bind_eq_bind, Option.bind_some, Option.bind_eq_some_iff,
    Option.pure_def, Option.some.injEq, Found.required_eq_some_iff]
  constructor
  · rintro ⟨addedBy, haddedBy, addedOn, haddedOn, parentId, hparentId, kind, hkind, rfl⟩
    exact ⟨⟨haddedBy, haddedOn, hparentId⟩, hkind⟩
  · rintro ⟨⟨haddedBy, haddedOn, hparentId⟩, hkind⟩
    exact ⟨_, haddedBy, _, haddedOn, _, hparentId, _, hkind, rfl⟩

theorem fileData?_eq_some_iff {entry : WorkspaceEntry} {data : FileData} :
    entry.fileData? = some data ↔ entry.kind = .file data := by
  unfold fileData?
  cases entry.kind <;> simp

/-- An object that has an address is read as the file with that address, or refused, exactly when
all that it says of a file fits, or else something that files and folders share or a count of a
folder does not fit. -/
theorem kind_follows_uri_iff (members : List (String × Json)) :
    ("uri" ∈ members.map Prod.fst → ∀ entry, ofJson? (.obj members) = some entry →
      ∃ data, entry.fileData? = some data ∧ ("uri", .str data.uri) ∈ members) ↔
    ("uri" ∈ members.map Prod.fst →
      (∃ data, FileData.Held members data) ∨ (¬ ∃ entry, HeldShared members entry) ∨
        ¬ ∃ data, FolderData.Held members data) := by
  apply imp_congr_right
  intro _
  constructor
  · intro h
    by_cases hfile : ∃ data, FileData.Held members data
    · exact Or.inl hfile
    · refine Or.inr (Classical.or_iff_not_imp_left.2 ?_)
      rintro hshared ⟨folder, hfolder⟩
      obtain ⟨entry, hshared⟩ := Classical.not_not.1 hshared
      -- Nothing but the file fits, so the object is read as a folder.
      have hread : ofJson? (.obj members) = some { entry with kind := .folder folder } :=
        ofJson?_obj_eq_some_iff.2 ⟨⟨hshared.addedBy, hshared.addedOn, hshared.parentId⟩,
          EntryContent.ofMembers?_eq_some_iff.2 (Or.inr ⟨hfile, folder, hfolder, rfl⟩)⟩
      obtain ⟨data, hdata, -⟩ := h _ hread
      cases hdata
  · rintro hfits entry hentry
    obtain ⟨hshared, hkind⟩ := ofJson?_obj_eq_some_iff.1 hentry
    rcases EntryContent.ofMembers?_eq_some_iff.1 hkind with
      ⟨data, hdata, hfile⟩ | ⟨hfile, data, hdata, -⟩
    · exact ⟨data, fileData?_eq_some_iff.2 hfile, mem_of_find_eq_once hdata.uri⟩
    · rcases hfits with hfits | hfits | hfits
      · exact absurd hfits hfile
      · exact absurd ⟨entry, hshared⟩ hfits
      · exact absurd ⟨data, hdata⟩ hfits

def fileWithoutStage : List (String × Json) :=
  [("addedBy", .obj [("username", .str "ada"), ("displayName", .str "Ada")]),
    ("uri", .str "blob://x"), ("mimeType", .str "text/plain")]

/-- A file of which no stage is given is read as an empty folder. -/
theorem file_without_stage_is_folder :
    ofJson? (.obj fileWithoutStage) = some ⟨⟨"ada", "Ada"⟩, none, none, .folder ⟨0, 0, 0, 0⟩⟩ ∧
      ¬ ("uri" ∈ fileWithoutStage.map Prod.fst →
        ∀ entry, ofJson? (.obj fileWithoutStage) = some entry →
          ∃ data, entry.fileData? = some data ∧ ("uri", .str data.uri) ∈ fileWithoutStage) := by
  have hread : ofJson? (.obj fileWithoutStage) =
      some ⟨⟨"ada", "Ada"⟩, none, none, .folder ⟨0, 0, 0, 0⟩⟩ := rfl
  refine ⟨hread, fun h => ?_⟩
  obtain ⟨data, hdata, -⟩ := h (by decide) _ hread
  cases hdata

end WorkspaceEntry

end TreeBrowser
