import TreeBrowser.Selection.Range
import TreeBrowser.Tree.Basic

/-!
# Selections

The selected entries in the order in which they were selected, the focused one, and the range that
the last range gesture selected. A gesture makes a new selection of the old one.
-/

namespace TreeBrowser

structure Selection where
  selected : List EntryId
  focused : Option EntryId
  lastRange : List EntryId
  deriving DecidableEq

namespace Selection

def empty : Selection :=
  ⟨[], none, []⟩

def isSelected (s : Selection) (id : EntryId) : Bool :=
  s.selected.contains id

def isFocused (s : Selection) (id : EntryId) : Bool :=
  s.focused == some id

def isEmpty (s : Selection) : Bool :=
  s.selected.isEmpty && s.focused.isNone

def click (_ : Selection) (id : EntryId) : Selection :=
  ⟨[id], some id, []⟩

/-- A meta click adds an entry and focuses it, or takes it away. When the focused entry goes, the
focus falls back on the last one that is left. -/
def metaClick (s : Selection) (id : EntryId) : Selection :=
  if s.isSelected id then
    let selected := s.selected.filter fun other => other != id
    ⟨selected, if s.isFocused id then selected.getLast? else s.focused, []⟩
  else ⟨s.selected ++ [id], some id, []⟩

/-- A shift click selects the range from the focused entry, in place of the last range. The focus
stays, so that the next shift click draws the range anew; without a focus it goes to the first
row. -/
def shiftClick (s : Selection) (ordered : List EntryId) (id : EntryId)
    (policy : MissingEndpoint) : Selection :=
  match s.focused <|> ordered.head? with
  | none => s
  | some anchor =>
    let range := rangeBetween ordered anchor id policy
    ⟨mergeRange s.lastRange range s.selected, some anchor, range⟩

def retainExisting {α : Type} (s : Selection) (t : Tree α) : Selection :=
  ⟨s.selected.filter t.contains, s.focused.filter t.contains, s.lastRange.filter t.contains⟩

end Selection

end TreeBrowser
