import TreeBrowser.Json.Printer
import TreeBrowser.Json.Reader
import TreeBrowser.Selection.Range

/-!
# Settings

What a user may settle in advance: the column that sorts and its direction, the rule for ranges
with a missing end, and which messages are logged. A field that the text leaves out has its default.
-/

namespace TreeBrowser

structure Settings where
  sortColumn : String := "Name"
  sortDescending : Bool := false
  missingEndpoint : MissingEndpoint := .empty
  logFilter : Option String := none
  deriving DecidableEq

namespace Settings

def fields : List String :=
  ["sort_column", "sort_descending", "missing_endpoint", "log_filter"]

def ofJson? (v : Json) : Option Settings := do
  let members ← Json.record? fields v
  let unset : Settings := {}
  let sortColumn ← (Json.find "sort_column" members).defaulted unset.sortColumn Json.str?
  let sortDescending ← (Json.find "sort_descending" members).defaulted unset.sortDescending
    Json.bool?
  let missingEndpoint ← (Json.find "missing_endpoint" members).defaulted unset.missingEndpoint
    MissingEndpoint.ofJson?
  let logFilter ← (Json.find "log_filter" members).optional Json.str?
  return { sortColumn, sortDescending, missingEndpoint, logFilter }

def toJson (s : Settings) : Json :=
  .obj ([("sort_column", .str s.sortColumn), ("sort_descending", .bool s.sortDescending),
    ("missing_endpoint", s.missingEndpoint.toJson)]
      ++ Json.optionalMember "log_filter" (s.logFilter.map .str))

def ofText? (text : String) : Option Settings :=
  (Json.ofDocument? text).bind ofJson?

def toText (s : Settings) : String :=
  s.toJson.toIndentedText

end Settings

end TreeBrowser
