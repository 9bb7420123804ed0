import TreeBrowser.Tree.Ancestry

/-!
# Moves

What a drag moves and where it may go. A drag moves the selected entries that lie below no other
selected entry, since the others go along with those; it may go into a folder that is neither moved
itself nor below an entry that is moved.
-/

namespace TreeBrowser

inductive MoveError where
  | draggedNotSelected (id : EntryId)
  | unknownEntry (id : EntryId)
  | targetNotNode (id : EntryId)
  | intoDescendant (id target : EntryId)
  deriving DecidableEq

def MoveError.message : MoveError → String
  | .draggedNotSelected id => "dragged entry " ++ id ++ " was not in selected entries"
  | .unknownEntry id => "unknown entry " ++ id
  | .targetNotNode id => "cannot move entries into " ++ id ++ ": not a folder"
  | .intoDescendant id target => "cannot move " ++ id ++ " into its own subtree (" ++ target ++ ")"

namespace Tree

variable {α : Type}

def hasAncestorIn (t : Tree α) (selected : List EntryId) (id : EntryId) : Bool :=
  (t.ancestors id).any fun e => selected.contains e.id

/-- What a drag that starts on `dragged` moves, in the order of the selection. -/
def idsToMove (t : Tree α) (selected : List EntryId) (dragged : EntryId) :
    Except MoveError (List EntryId) :=
  if selected.contains dragged then
    .ok (selected.filter fun id => !t.hasAncestorIn selected id)
  else .error (.draggedNotSelected dragged)

def moveFault? (t : Tree α) (target id : EntryId) : Option MoveError :=
  if !t.contains id then some (.unknownEntry id)
  else if id == target || t.isDescendantOf target id then some (.intoDescendant id target)
  else none

/-- Whether the entries may all go into `target`; the first fault counts. -/
def checkMove (t : Tree α) (ids : List EntryId) (target : EntryId) : Except MoveError Unit :=
  match t.get? target with
  | none => .error (.unknownEntry target)
  | some e =>
    if !e.isNode then .error (.targetNotNode target)
    else match ids.findSome? (t.moveFault? target) with
      | some fault => .error fault
      | none => .ok ()

end Tree

end TreeBrowser
