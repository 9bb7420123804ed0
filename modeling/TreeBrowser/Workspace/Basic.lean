import TreeBrowser.Json.Reader
import TreeBrowser.Tree.Nest
import TreeBrowser.Workspace.EntryData
import TreeBrowser.Workspace.Metadata

/-!
# Workspaces

A workspace is its metadata and its tree. It is sent as one document that holds the metadata beside
the nested form of the tree; a document that does not fit is refused before its tree is looked at.
-/

namespace TreeBrowser

structure WorkspaceSnapshot where
  metadata : WorkspaceMetadata
  rootNode : Snapshot WorkspaceEntry

namespace WorkspaceSnapshot

def ofJson? (v : Json) : Option WorkspaceSnapshot := do
  let members ← Json.object? v
  let metadata ← WorkspaceMetadata.ofMembers? members
  let rootNode ← (Json.find "rootNode" members).required (Snapshot.ofJson? WorkspaceEntry.ofJson?)
  return { metadata, rootNode }

def toJson (s : WorkspaceSnapshot) : Json :=
  .obj (s.metadata.toMembers ++ [("rootNode", s.rootNode.toJson WorkspaceEntry.toJson)])

end WorkspaceSnapshot

inductive WorkspaceError where
  | json
  | tree (error : TreeError)
  deriving DecidableEq

/-- The wording of an error. What a reader of the text found amiss would follow the first one. -/
def WorkspaceError.message : WorkspaceError → String
  | .json => "invalid workspace json: "
  | .tree error => "invalid workspace tree: " ++ error.message

structure Workspace where
  metadata : WorkspaceMetadata
  tree : Tree WorkspaceEntry

namespace Workspace

def ofSnapshot (s : WorkspaceSnapshot) : Except TreeError Workspace := do
  let tree ← Tree.ofSnapshot s.rootNode
  return { metadata := s.metadata, tree }

def toSnapshot (w : Workspace) : WorkspaceSnapshot :=
  ⟨w.metadata, w.tree.toSnapshot⟩

def ofText (text : String) : Except WorkspaceError Workspace :=
  match (Json.ofWholeDocument? text).bind WorkspaceSnapshot.ofJson? with
  | none => .error .json
  | some s => (ofSnapshot s).mapError .tree

def id (w : Workspace) : String :=
  w.metadata.id

/-- The data of a file that an entry stands for. Neither a folder that carries file data nor a file
that carries folder data has any. -/
def fileDataOf? (e : Entry WorkspaceEntry) : Option FileData :=
  if e.isLeaf then e.data.fileData? else none

def hasProcessingFiles (w : Workspace) : Bool :=
  w.tree.entries.any fun e => (fileDataOf? e).any fun data => data.stage.isProcessing

end Workspace

end TreeBrowser
