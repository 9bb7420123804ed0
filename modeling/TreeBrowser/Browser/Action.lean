import TreeBrowser.Text.Literal
import TreeBrowser.Workspace.Basic

/-!
# Actions and effects

What a user or the surroundings may ask of a browser, and what the browser asks of its surroundings
in turn.
-/

namespace TreeBrowser

structure Modifiers where
  metaKey : Bool
  shiftKey : Bool
  deriving DecidableEq

namespace Modifiers

def none : Modifiers := ⟨false, false⟩

def onlyMeta : Modifiers := ⟨true, false⟩

def onlyShift : Modifiers := ⟨false, true⟩

end Modifiers

inductive Action where
  | click (id : EntryId) (modifiers : Modifiers)
  | focusAdjacent (delta : Int) (modifiers : Modifiers)
  | expand (id : EntryId)
  | collapse (id : EntryId)
  | toggleExpanded (id : EntryId)
  | activate (id : EntryId)
  | clearFocus
  | sortBy (column : String)
  | drop (dragged target : EntryId)
  | beginRename (id : EntryId)
  | finishRename (name : String)
  | cancelRename
  | createFolder (name : String)
  | remove (id : EntryId)
  | replaceWorkspace (workspace : Workspace)
  | tick

inductive Effect where
  | focusChanged (id : EntryId)
  | openViewer (uri : String)
  | moveEntries (ids : List EntryId) (newParent : EntryId)
  | renameEntry (id : EntryId) (name : String)
  | removeEntry (id : EntryId)
  | createFolder (parent : EntryId) (name : String)
  | refreshWorkspace (workspaceId : String)
  deriving DecidableEq

def Effect.literal : Effect → String
  | .focusChanged id => Text.recordLiteral "FocusChanged" [("id", Text.literal id)]
  | .openViewer uri => Text.recordLiteral "OpenViewer" [("uri", Text.literal uri)]
  | .moveEntries ids newParent =>
    Text.recordLiteral "MoveEntries"
      [("ids", Text.listLiteral (ids.map Text.literal)), ("new_parent_id", Text.literal newParent)]
  | .renameEntry id name =>
    Text.recordLiteral "RenameEntry" [("id", Text.literal id), ("name", Text.literal name)]
  | .removeEntry id => Text.recordLiteral "RemoveEntry" [("id", Text.literal id)]
  | .createFolder parent name =>
    Text.recordLiteral "CreateFolder"
      [("parent_id", Text.literal parent), ("name", Text.literal name)]
  | .refreshWorkspace workspaceId =>
    Text.recordLiteral "RefreshWorkspace" [("workspace_id", Text.literal workspaceId)]

end TreeBrowser
