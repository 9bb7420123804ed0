import TreeBrowser.Browser.State
import TreeBrowser.Tree.Ancestry

/-!
# Outlines

The rows of a browser as text: marks for the focused entry and the selected ones, the name indented
by its depth, and for a folder whether it is open.
-/

namespace TreeBrowser

/-- A row of an outline. A file has no `openFolder`. -/
structure OutlineRow where
  focused : Bool
  selected : Bool
  indent : Nat
  name : String
  openFolder : Option Bool
  deriving DecidableEq

def OutlineRow.text (row : OutlineRow) : String :=
  (if row.focused then ">" else " ") ++ (if row.selected then "*" else " ") ++ " "
    ++ String.ofList (List.replicate (2 * row.indent) ' ') ++ row.name
    ++ (match row.openFolder with
      | some true => "/ [-]"
      | some false => "/ [+]"
      | none => "")

namespace Browser

/-- An entry as a row; the children of the root are not indented. -/
def outlineRow (b : Browser) (e : Entry WorkspaceEntry) : OutlineRow where
  focused := b.selection.isFocused e.id
  selected := b.selection.isSelected e.id
  indent := b.tree.depth e.id - 1
  name := e.name
  openFolder := if e.isNode then some (b.expanded.contains e.id) else none

def outline (b : Browser) : List OutlineRow :=
  b.listing.rows.map b.outlineRow

end Browser

end TreeBrowser
