import TreeBrowser.Tree.Basic

/-!
# Expansion

The set of folders that are open, by id. Beside each operation stands the question whether it has
anything to do; one that has not leaves the set as it is.
-/

namespace TreeBrowser

/-- A set of ids, held as a list without repetitions. -/
structure Expansion where
  ids : List EntryId
  nodup : ids.Nodup
  deriving DecidableEq

namespace Expansion

def empty : Expansion :=
  ⟨[], .nil⟩

def contains (x : Expansion) (id : EntryId) : Bool :=
  x.ids.contains id

def size (x : Expansion) : Nat :=
  x.ids.length

def isEmpty (x : Expansion) : Bool :=
  x.ids.isEmpty

def filter (x : Expansion) (test : EntryId → Bool) : Expansion :=
  ⟨x.ids.filter test, x.nodup.filter test⟩

def insert (x : Expansion) (id : EntryId) : Expansion :=
  if h : id ∈ x.ids then x
  else ⟨id :: x.ids, List.nodup_cons.2 ⟨h, x.nodup⟩⟩

def erase (x : Expansion) (id : EntryId) : Expansion :=
  x.filter fun other => other != id

def ofIds (ids : List EntryId) : Expansion :=
  ids.foldl insert empty

variable {α : Type}

/-- Opens a folder. A file or an unknown id is left alone. -/
def expand (x : Expansion) (t : Tree α) (id : EntryId) : Expansion :=
  if t.isNode id then x.insert id else x

def expands (x : Expansion) (t : Tree α) (id : EntryId) : Bool :=
  t.isNode id && !x.contains id

def collapse (x : Expansion) (id : EntryId) : Expansion :=
  x.erase id

def collapses (x : Expansion) (id : EntryId) : Bool :=
  x.contains id

def toggle (x : Expansion) (t : Tree α) (id : EntryId) : Expansion :=
  if x.contains id then x.collapse id else x.expand t id

def toggles (x : Expansion) (t : Tree α) (id : EntryId) : Bool :=
  if x.contains id then x.collapses id else x.expands t id

def retainExisting (x : Expansion) (t : Tree α) : Expansion :=
  x.filter t.isNode

end Expansion

end TreeBrowser
