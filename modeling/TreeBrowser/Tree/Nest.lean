import TreeBrowser.Tree.Basic

/-!
# Nesting a tree

The way back from the table to the nested form. Children stand after their parent in the table, so
from its end to its start each entry finds its children nested already.
-/

namespace TreeBrowser

variable {α : Type}

def Entry.nest (done : List (Snapshot α)) (e : Entry α) : Snapshot α :=
  match e.kind with
  | .node children =>
    .node e.id e.name e.data (children.filterMap fun id => done.find? fun s => s.id == id)
  | .leaf expandable => .leaf e.id e.name e.data expandable

def nestAll : List (Entry α) → List (Snapshot α)
  | [] => []
  | e :: later => e.nest (nestAll later) :: nestAll later

def Tree.toSnapshot (t : Tree α) : Snapshot α :=
  t.root.nest (nestAll t.others)

end TreeBrowser
