import TreeBrowser.Columns
import TreeBrowser.Expansion

/-!
# The visual order

The rows that a browser shows: the root's children in the order of the columns, and after each open
folder its own children in the same way, level by level. The rows come one at a time from a walk
that remembers, for each level it is in, the siblings it has yet to show.
-/

namespace TreeBrowser

variable {α : Type}

structure Listing (α : Type) where
  tree : Tree α
  columns : Columns α
  expanded : Expansion

namespace Listing

def sortedChildren (l : Listing α) (e : Entry α) : List (Entry α) :=
  l.columns.sort (l.tree.childrenOf e)

def isOpen (l : Listing α) (e : Entry α) : Bool :=
  e.isNode && l.expanded.contains e.id

/-- The next row, and what is left to show. `levels` are the siblings left at each level, the
innermost first. -/
def next? (l : Listing α) (levels : List (List (Entry α))) :
    Option (Entry α × List (List (Entry α))) :=
  match levels with
  | [] => none
  | [] :: outer => l.next? outer
  | (e :: siblings) :: outer =>
    some (e, if l.isOpen e then l.sortedChildren e :: siblings :: outer else siblings :: outer)

def start (l : Listing α) : List (List (Entry α)) :=
  [l.sortedChildren l.tree.root]

def walk (l : Listing α) : Nat → List (List (Entry α)) → List (Entry α)
  | 0, _ => []
  | n + 1, levels =>
    match l.next? levels with
    | none => []
    | some (e, levels) => e :: l.walk n levels

def take (l : Listing α) (n : Nat) : List (Entry α) :=
  l.walk n l.start

/-- All rows. No entry is shown twice, so there are no more rows than entries. -/
def rows (l : Listing α) : List (Entry α) :=
  l.take l.tree.size

def ids (l : Listing α) : List EntryId :=
  l.rows.map Entry.id

end Listing

end TreeBrowser
