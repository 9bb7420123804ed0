import TreeBrowser.Tree.Basic

/-!
# Ancestry

What encloses an entry, found by following parents through the table: a parent stands before its
children there, so each step goes on among the entries before the last one. Depth, the descendant
test and the path of an entry are read off this chain.
-/

namespace TreeBrowser

variable {α : Type}

/-- The entry `id` and what encloses it, nearest first, in a table with the newest entry first. -/
def lineageIn : List (Entry α) → EntryId → List (Entry α)
  | [], _ => []
  | e :: older, id =>
    if e.id = id then
      match e.parent with
      | none => [e]
      | some parent => e :: lineageIn older parent
    else lineageIn older id

namespace Tree

def lineage (t : Tree α) (id : EntryId) : List (Entry α) :=
  lineageIn t.entries.reverse id

/-- What encloses an entry, nearest first and the root last. -/
def ancestors (t : Tree α) (id : EntryId) : List (Entry α) :=
  (t.lineage id).tail

def parent? (t : Tree α) (id : EntryId) : Option (Entry α) :=
  ((t.get? id).bind Entry.parent).bind t.get?

def depth (t : Tree α) (id : EntryId) : Nat :=
  (t.ancestors id).length

def isDescendantOf (t : Tree α) (candidate ancestor : EntryId) : Bool :=
  (t.ancestors candidate).any fun e => e.id == ancestor

/-- The folders from the root down to an entry. A folder ends its own path; the path of a file ends
with the folder it is in. -/
def pathTo? (t : Tree α) (id : EntryId) : Option (List (Entry α)) :=
  (t.get? id).map fun e =>
    (t.ancestors id).reverse ++ (if e.isNode then [e] else [])

/-- The names of the folders from the root down to an entry, each followed by a slash. -/
def displayPath (t : Tree α) (id : EntryId) : String :=
  match t.pathTo? id with
  | some path => "/".intercalate (path.map Entry.name) ++ "/"
  | none => ""

end Tree

end TreeBrowser
