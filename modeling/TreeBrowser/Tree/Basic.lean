import TreeBrowser.Tree.BuildResult

/-!
# Trees

A tree is the table of the entries of a snapshot whose top is a folder and whose ids differ. The
table is kept in the order in which the entries were met, so a parent stands before its children,
and the questions on a tree are answered by the ids and parents in the table.
-/

namespace TreeBrowser

/-- A tree of folders and files: the table of a snapshot whose top is a folder and whose ids
differ. -/
structure Tree (α : Type) extends Table α where
  nested : ∃ s : Snapshot α, s.isNode ∧ s.entries = root :: others
  nodup : ((root :: others).map Entry.id).Nodup

namespace Tree

variable {α : Type}

def ofSnapshot (s : Snapshot α) : Except TreeError (Tree α) :=
  if hs : s.isNode then
    match h : Table.build [s] ⟨s.bareEntry none, []⟩ with
    | .error e => .error e
    | .ok t => .ok ⟨t, ⟨s, hs, (Table.build_top_eq_ok h).1⟩, (Table.build_top_eq_ok h).2⟩
  else .error (.rootNotNode s.id)

def isNode (t : Tree α) (id : EntryId) : Bool :=
  (t.get? id).any Entry.isNode

def size (t : Tree α) : Nat :=
  t.entries.length

def isEmpty (t : Tree α) : Bool :=
  t.others.isEmpty

def childrenOf (t : Tree α) (e : Entry α) : List (Entry α) :=
  e.children.filterMap t.get?

end Tree

end TreeBrowser
