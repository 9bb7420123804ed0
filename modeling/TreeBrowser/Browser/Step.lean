import TreeBrowser.Browser.Action
import TreeBrowser.Browser.State
import TreeBrowser.Move
import TreeBrowser.Text.Blank

/-!
# The steps of a browser

What each action does: the state after it, the effects it asks for, and whether anything that is
shown has changed. An action whose condition is not met leaves the state as it was.
-/

namespace TreeBrowser

structure Outcome where
  effects : List Effect
  changed : Bool
  deriving DecidableEq

namespace Outcome

def unchanged : Outcome :=
  ⟨[], false⟩

def ofChange (changed : Bool) : Outcome :=
  ⟨[], changed⟩

end Outcome

namespace Browser

def setSelection (b : Browser) (next : Selection) (cursor : Option EntryId)
    (effects : List Effect) : Browser × Outcome :=
  ({ b with selection := next, cursor }, ⟨effects, next != b.selection⟩)

def setExpanded (b : Browser) (next : Expansion) (changed : Bool) : Browser × Outcome :=
  ({ b with expanded := next }, .ofChange changed)

def expand (b : Browser) (id : EntryId) : Browser × Outcome :=
  b.setExpanded (b.expanded.expand b.tree id) (b.expanded.expands b.tree id)

def collapse (b : Browser) (id : EntryId) : Browser × Outcome :=
  b.setExpanded (b.expanded.collapse id) (b.expanded.collapses id)

def toggle (b : Browser) (id : EntryId) : Browser × Outcome :=
  b.setExpanded (b.expanded.toggle b.tree id) (b.expanded.toggles b.tree id)

def clicked (b : Browser) (id : EntryId) (modifiers : Modifiers) : Selection :=
  if modifiers.metaKey then b.selection.metaClick id
  else if modifiers.shiftKey then b.selection.shiftClick b.rowIds id b.missingEndpoint
  else b.selection.click id

/-- Only a plain click moves the focus for others to see. -/
def clickEffects (id : EntryId) (modifiers : Modifiers) : List Effect :=
  if modifiers.metaKey || modifiers.shiftKey then [] else [.focusChanged id]

def click (b : Browser) (id : EntryId) (modifiers : Modifiers) : Browser × Outcome :=
  if b.tree.contains id then
    b.setSelection (b.clicked id modifiers) (some id) (clickEffects id modifiers)
  else (b, .unchanged)

/-- The row from which a step on the keyboard starts: that of the cursor, or of the focused entry
when there is no cursor. -/
def originRow? (b : Browser) : Option Nat :=
  (b.cursor <|> b.selection.focused).bind fun id => b.rowIds.idxOf? id

/-- The row to which a step on the keyboard goes: `delta` rows on, or the first row when there is
none to start from. It goes nowhere when it would leave the rows or stay where it is. -/
def steppedRow? (b : Browser) (delta : Int) : Option EntryId :=
  let target := match b.originRow? with
    | some row => row + delta
    | none => 0
  if target < 0 || b.originRow? == some target.toNat then none else b.rowIds[target.toNat]?

def focusAdjacent (b : Browser) (delta : Int) (modifiers : Modifiers) : Browser × Outcome :=
  match b.steppedRow? delta with
  | some id => b.click id modifiers
  | none => (b, .unchanged)

def activate (b : Browser) (id : EntryId) : Browser × Outcome :=
  match b.tree.get? id with
  | none => (b, .unchanged)
  | some e =>
    if e.isNode then b.toggle id
    else if b.editing.isSome then (b, .unchanged)
    else match e.data.fileData? with
      | some data => (b, ⟨[.openViewer data.uri], false⟩)
      | none => (b, .unchanged)

def clearFocus (b : Browser) : Browser × Outcome :=
  b.setSelection .empty none []

def sortBy (b : Browser) (column : String) : Browser × Outcome :=
  ({ b with columns := b.columns.click column }, .ofChange (b.columns.has column))

def dropEffects (b : Browser) (dragged target : EntryId) : Except MoveError (List Effect) := do
  let ids ← b.tree.idsToMove b.selection.selected dragged
  b.tree.checkMove ids target
  return [.moveEntries ids target]

def drop (b : Browser) (dragged target : EntryId) : Browser × Outcome :=
  match b.dropEffects dragged target with
  | .ok effects => (b, ⟨effects, false⟩)
  | .error _ => (b, .unchanged)

/-- Whether an entry can be renamed and removed, which the root cannot. -/
def isEditable (b : Browser) (id : EntryId) : Bool :=
  b.tree.contains id && id != b.tree.root.id

def beginRename (b : Browser) (id : EntryId) : Browser × Outcome :=
  if b.isEditable id then
    ({ b with editing := some id }, .ofChange (b.editing != some id))
  else (b, .unchanged)

/-- Ends the editing of a name. An empty name, and the name that the entry has already, are not
passed on. -/
def finishRename (b : Browser) (name : String) : Browser × Outcome :=
  match b.editing with
  | none => (b, .unchanged)
  | some id =>
    let name := Text.trim name
    let effects := match b.tree.get? id with
      | some e => if name = "" || e.name = name then [] else [.renameEntry id name]
      | none => []
    ({ b with editing := none }, ⟨effects, true⟩)

def cancelRename (b : Browser) : Browser × Outcome :=
  ({ b with editing := none }, .ofChange b.editing.isSome)

/-- The folder in which a new folder is made: the focused folder, the folder of the focused file, or
the root. -/
def newFolderParent (b : Browser) : Entry WorkspaceEntry :=
  let parent? := match b.selection.focused.bind b.tree.get? with
    | some e => if e.isNode then some e else b.tree.parent? e.id
    | none => none
  parent?.getD b.tree.root

def createFolder (b : Browser) (name : String) : Browser × Outcome :=
  let name := Text.trim name
  if name = "" || 1 < b.selection.selected.length then (b, .unchanged)
  else (b, ⟨[.createFolder b.newFolderParent.id name], false⟩)

def remove (b : Browser) (id : EntryId) : Browser × Outcome :=
  if b.isEditable id then b.setSelection .empty none [.removeEntry id] else (b, .unchanged)

/-- Goes over to another workspace, in which nothing of the state means anything. -/
def switchTo (b : Browser) (workspace : Workspace) : Browser :=
  { b with workspace, selection := .empty, cursor := none, expanded := .empty, editing := none }

/-- Takes over a workspace that has been fetched again, and keeps what is still there. -/
def refetched (b : Browser) (workspace : Workspace) : Browser :=
  { b with
    workspace
    selection := b.selection.retainExisting workspace.tree
    expanded := b.expanded.retainExisting workspace.tree
    cursor := b.cursor.filter workspace.tree.contains
    editing := b.editing.filter workspace.tree.contains }

def replaceWorkspace (b : Browser) (workspace : Workspace) : Browser × Outcome :=
  (if workspace.id = b.workspace.id then b.refetched workspace else b.switchTo workspace,
    .ofChange true)

def tick (b : Browser) : Browser × Outcome :=
  if b.workspace.hasProcessingFiles then (b, ⟨[.refreshWorkspace b.workspace.id], false⟩)
  else (b, .unchanged)

def dispatch (b : Browser) : Action → Browser × Outcome
  | .click id modifiers => b.click id modifiers
  | .focusAdjacent delta modifiers => b.focusAdjacent delta modifiers
  | .expand id => b.expand id
  | .collapse id => b.collapse id
  | .toggleExpanded id => b.toggle id
  | .activate id => b.activate id
  | .clearFocus => b.clearFocus
  | .sortBy column => b.sortBy column
  | .drop dragged target => b.drop dragged target
  | .beginRename id => b.beginRename id
  | .finishRename name => b.finishRename name
  | .cancelRename => b.cancelRename
  | .createFolder name => b.createFolder name
  | .remove id => b.remove id
  | .replaceWorkspace workspace => b.replaceWorkspace workspace
  | .tick => b.tick

end Browser

end TreeBrowser
