import TreeBrowser.Tree.Entry

/-!
# Building a table

A snapshot is brought into a table one part at a time. The folders whose children have yet to be
entered wait on a stack: the last one that was met is taken off, its children are entered in their
order, and those among them that are folders are put on the stack. An id that is in the table
already ends the building.
-/

namespace TreeBrowser

namespace Snapshot

variable {α : Type}

theorem sizeAll_append (ss ts : List (Snapshot α)) :
    sizeAll (ss ++ ts) = sizeAll ss + sizeAll ts := by
  induction ss with
  | nil => simp [sizeAll]
  | cons s ss ih => simp [sizeAll, ih, Nat.add_assoc]

theorem sizeAll_reverse (ss : List (Snapshot α)) : sizeAll ss.reverse = sizeAll ss := by
  induction ss with
  | nil => rfl
  | cons s ss ih => simp [sizeAll_append, sizeAll, ih, Nat.add_comm]

theorem sizeAll_filter_le (test : Snapshot α → Bool) (ss : List (Snapshot α)) :
    sizeAll (ss.filter test) ≤ sizeAll ss := by
  induction ss with
  | nil => simp
  | cons s ss ih =>
    rw [List.filter_cons]
    split <;> simp only [sizeAll] <;> omega

theorem sizeAll_children_lt (s : Snapshot α) : sizeAll s.children < s.size := by
  cases s <;> simp [children, size, sizeAll]

end Snapshot

inductive TreeError where
  | duplicateId (id : EntryId)
  | rootNotNode (id : EntryId)
  deriving DecidableEq

def TreeError.message : TreeError → String
  | .duplicateId id => "duplicate entry id: " ++ id
  | .rootNotNode id => "root entry " ++ id ++ " is not a node"

variable {α : Type}

def Entry.adopt (parent child : EntryId) (e : Entry α) : Entry α :=
  match e.kind with
  | .node children =>
    if e.id = parent then { e with kind := .node (children ++ [child]) } else e
  | .leaf _ => e

/-- The root folder and the other entries, in the order in which they were entered. -/
structure Table (α : Type) where
  root : Entry α
  others : List (Entry α)

namespace Table

def entries (t : Table α) : List (Entry α) :=
  t.root :: t.others

def ids (t : Table α) : List EntryId :=
  t.entries.map Entry.id

def get? (t : Table α) (id : EntryId) : Option (Entry α) :=
  t.entries.find? fun e => e.id == id

def contains (t : Table α) (id : EntryId) : Bool :=
  (t.get? id).isSome

def insert (parent : EntryId) (t : Table α) (s : Snapshot α) : Except TreeError (Table α) :=
  if t.contains s.id then .error (.duplicateId s.id)
  else .ok
    ⟨t.root.adopt parent s.id,
      t.others.map (Entry.adopt parent s.id) ++ [s.bareEntry (some parent)]⟩

def build : List (Snapshot α) → Table α → Except TreeError (Table α)
  | [], t => .ok t
  | folder :: stack, t => do
    let t ← folder.children.foldlM (insert folder.id) t
    build ((folder.children.filter Snapshot.isNode).reverse ++ stack) t
termination_by stack => Snapshot.sizeAll stack
decreasing_by
  have hfolders := Snapshot.sizeAll_filter_le Snapshot.isNode folder.children
  have hbelow := Snapshot.sizeAll_children_lt folder
  simp only [Snapshot.sizeAll_append, Snapshot.sizeAll_reverse, Snapshot.sizeAll]
  omega

end Table

end TreeBrowser
