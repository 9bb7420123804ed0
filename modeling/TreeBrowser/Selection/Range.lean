import TreeBrowser.Json.Reader
import TreeBrowser.Json.Record
import TreeBrowser.Tree.Snapshot

/-!
# Ranges

The run of rows between two ends that a range gesture selects, and how a new run takes the place of
the one before it in a selection.
-/

namespace TreeBrowser

/-- What a range is when one of its ends is no row: nothing, or all rows from the first one to the
other end. When neither end is a row, a range is always empty. -/
inductive MissingEndpoint where
  | empty
  | clampToStart
  deriving DecidableEq

namespace MissingEndpoint

def name : MissingEndpoint → String
  | .empty => "empty"
  | .clampToStart => "clamp_to_start"

def ofName? (name : String) : Option MissingEndpoint :=
  [empty, clampToStart].find? fun policy => policy.name == name

def ofJson? (v : Json) : Option MissingEndpoint :=
  (Json.caseName? v).bind ofName?

def ofText? (text : String) : Option MissingEndpoint :=
  (Json.ofDocument? text).bind ofJson?

def toJson (policy : MissingEndpoint) : Json :=
  .str policy.name

end MissingEndpoint

def rangeBounds? (policy : MissingEndpoint) : Option Nat → Option Nat → Option (Nat × Nat)
  | some a, some b => some (min a b, max a b)
  | none, none => none
  | some found, none => match policy with
    | .empty => none
    | .clampToStart => some (0, found)
  | none, some found => match policy with
    | .empty => none
    | .clampToStart => some (0, found)

/-- The rows between two ids, the ends among them, whichever comes first. -/
def rangeBetween (ordered : List EntryId) (a b : EntryId) (policy : MissingEndpoint) :
    List EntryId :=
  match rangeBounds? policy (ordered.idxOf? a) (ordered.idxOf? b) with
  | some (first, last) => (ordered.take (last + 1)).drop first
  | none => []

/-- The selection `current` with the range `previous` replaced by `new`, which goes to its end. No
id is in it twice. -/
def mergeRange (previous new current : List EntryId) : List EntryId :=
  (current.filter (fun id => !previous.contains id && !new.contains id) ++ new).eraseDups

end TreeBrowser
