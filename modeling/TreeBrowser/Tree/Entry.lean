import TreeBrowser.Tree.Snapshot

/-!
# Entries

One folder or file without what lies below it: entries name their parent and their children by id.
The entries of a snapshot are listed in the order in which they are met, a folder's children one
after another, then what lies below the last of them, and so on back to the first.
-/

namespace TreeBrowser

inductive Entry.Kind where
  | node (children : List EntryId)
  | leaf (expandable : Bool)

structure Entry (α : Type) where
  id : EntryId
  name : String
  data : α
  parent : Option EntryId
  kind : Entry.Kind

namespace Entry

variable {α : Type}

def isNode (e : Entry α) : Bool :=
  match e.kind with
  | .node _ => true
  | .leaf _ => false

def isLeaf (e : Entry α) : Bool :=
  !e.isNode

/-- Whether there is something to show below the entry, be it present or still to be fetched. -/
def isExpandable (e : Entry α) : Bool :=
  match e.kind with
  | .node _ => true
  | .leaf expandable => expandable

def children (e : Entry α) : List EntryId :=
  match e.kind with
  | .node children => children
  | .leaf _ => []

end Entry

namespace Snapshot

variable {α : Type}

def isNode : Snapshot α → Bool
  | .node .. => true
  | .leaf .. => false

def children : Snapshot α → List (Snapshot α)
  | .node _ _ _ children => children
  | .leaf .. => []

def entry (parent : Option EntryId) : Snapshot α → Entry α
  | .node id name data children => ⟨id, name, data, parent, .node (children.map Snapshot.id)⟩
  | .leaf id name data expandable => ⟨id, name, data, parent, .leaf expandable⟩

/-- The top of a snapshot as an entry below `parent` that has been given no children yet. -/
def bareEntry (parent : Option EntryId) : Snapshot α → Entry α
  | .node id name data _ => ⟨id, name, data, parent, .node []⟩
  | .leaf id name data expandable => ⟨id, name, data, parent, .leaf expandable⟩

mutual

def size : Snapshot α → Nat
  | .node _ _ _ children => sizeAll children + 1
  | .leaf .. => 1

def sizeAll : List (Snapshot α) → Nat
  | [] => 0
  | s :: rest => size s + sizeAll rest

end

mutual

/-- What lies below the top of a snapshot, in the order in which it is met, each part with the id of
the folder that it is in. -/
def placed : Snapshot α → List (EntryId × Snapshot α)
  | .node id _ _ children => children.map (Prod.mk id) ++ placedLast children
  | .leaf .. => []

/-- What lies below siblings, the last of them first. -/
def placedLast : List (Snapshot α) → List (EntryId × Snapshot α)
  | [] => []
  | s :: rest => placedLast rest ++ placed s

end

def placedEntry (place : EntryId × Snapshot α) : Entry α :=
  place.2.entry (some place.1)

def entries (s : Snapshot α) : List (Entry α) :=
  s.entry none :: s.placed.map placedEntry

end Snapshot

end TreeBrowser
