import TreeBrowser.Workspace.Stage
import TreeBrowser.Workspace.User

/-!
# Entry data

What a workspace knows of an entry: who added it and when, and either the data of a file or the
counts of a folder. Data that fits a file is file data, and all else that fits is folder data,
whatever the entry that carries it is.
-/

namespace TreeBrowser

structure FileData where
  stage : ProcessingStage
  uri : String
  mimeType : String
  size : Option UInt64
  deriving DecidableEq

structure FolderData where
  leafCount : UInt64
  nodeCount : UInt64
  processingTaskCount : UInt64
  failedCount : UInt64
  deriving DecidableEq

inductive EntryContent where
  | file (data : FileData)
  | folder (data : FolderData)
  deriving DecidableEq

structure WorkspaceEntry where
  addedBy : PartialUser
  addedOn : Option UInt64
  parentId : Option String
  kind : EntryContent
  deriving DecidableEq

namespace FileData

def ofMembers? (members : List (String × Json)) : Option FileData := do
  let stage ← (Json.find "processingStage" members).required
    (ProcessingStage.ofJson? ProcessingStage.Tag.namedOrNumbered?)
  let uri ← (Json.find "uri" members).required Json.str?
  let mimeType ← (Json.find "mimeType" members).required Json.str?
  let size ← (Json.find "size" members).optional Json.uint64?
  return { stage, uri, mimeType, size }

def toMembers (data : FileData) : List (String × Json) :=
  [("processingStage", data.stage.toJson), ("uri", .str data.uri),
   ("mimeType", .str data.mimeType)] ++ Json.optionalMember "size" (data.size.map Json.ofUInt64)

end FileData

namespace FolderData

def ofMembers? (members : List (String × Json)) : Option FolderData := do
  let count (name : String) := (Json.find name members).defaulted 0 Json.uint64?
  let leafCount ← count "descendantsLeafCount"
  let nodeCount ← count "descendantsNodeCount"
  let processingTaskCount ← count "descendantsProcessingTaskCount"
  let failedCount ← count "descendantsFailedCount"
  return { leafCount, nodeCount, processingTaskCount, failedCount }

def toMembers (data : FolderData) : List (String × Json) :=
  [("descendantsLeafCount", Json.ofUInt64 data.leafCount),
   ("descendantsNodeCount", Json.ofUInt64 data.nodeCount),
   ("descendantsProcessingTaskCount", Json.ofUInt64 data.processingTaskCount),
   ("descendantsFailedCount", Json.ofUInt64 data.failedCount)]

end FolderData

namespace EntryContent

def ofMembers? (members : List (String × Json)) : Option EntryContent :=
  (FileData.ofMembers? members).map .file <|> (FolderData.ofMembers? members).map .folder

def toMembers : EntryContent → List (String × Json)
  | .file data => data.toMembers
  | .folder data => data.toMembers

end EntryContent

namespace WorkspaceEntry

def ofJson? (v : Json) : Option WorkspaceEntry := do
  let members ← Json.object? v
  let addedBy ← (Json.find "addedBy" members).required PartialUser.ofJson?
  let addedOn ← (Json.find "addedOn" members).optional Json.uint64?
  let parentId ← (Json.find "maybeParentId" members).optional Json.str?
  let kind ← EntryContent.ofMembers? members
  return { addedBy, addedOn, parentId, kind }

def toJson (entry : WorkspaceEntry) : Json :=
  .obj ([("addedBy", entry.addedBy.toJson)]
    ++ Json.optionalMember "addedOn" (entry.addedOn.map Json.ofUInt64)
    ++ Json.optionalMember "maybeParentId" (entry.parentId.map .str)
    ++ entry.kind.toMembers)

def fileData? (entry : WorkspaceEntry) : Option FileData :=
  match entry.kind with
  | .file data => some data
  | .folder _ => none

def stageText? (entry : WorkspaceEntry) : Option String :=
  entry.fileData?.map fun data => data.stage.display

/-- Whether every part of the value outside `addedBy`, whose surplus is passed over, denotes
something. -/
def readable (v : Json) : Bool :=
  match v with
  | .obj members => members.all fun (key, v) => key == "addedBy" || v.readable
  | v => v.readable

def ofText? (text : String) : Option WorkspaceEntry :=
  ((Json.ofDocument? text).filter readable).bind ofJson?

end WorkspaceEntry

end TreeBrowser
