import TreeBrowser.Selection.Basic
import TreeBrowser.Settings.Basic
import TreeBrowser.VisualOrder
import TreeBrowser.Workspace.Columns

/-!
# The state of a browser

A workspace and how a user looks at it: the columns, the open folders, the selection, the row that
the last gesture came to, and the entry whose name is being edited.
-/

namespace TreeBrowser

structure Browser where
  workspace : Workspace
  columns : Columns WorkspaceEntry
  expanded : Expansion
  selection : Selection
  cursor : Option EntryId
  editing : Option EntryId
  missingEndpoint : MissingEndpoint

namespace Browser

/-- The columns that settings ask for. A column that there is not is passed over. -/
def columnsOf (settings : Settings) : Columns WorkspaceEntry :=
  let columns := Workspace.defaultColumns
  let sortColumn := if columns.has settings.sortColumn then settings.sortColumn
    else columns.sortColumn
  { columns with sortColumn, descending := settings.sortDescending }

def start (workspace : Workspace) (settings : Settings) : Browser where
  workspace
  columns := columnsOf settings
  expanded := .empty
  selection := .empty
  cursor := none
  editing := none
  missingEndpoint := settings.missingEndpoint

def tree (b : Browser) : Tree WorkspaceEntry :=
  b.workspace.tree

def listing (b : Browser) : Listing WorkspaceEntry :=
  ⟨b.tree, b.columns, b.expanded⟩

def rowIds (b : Browser) : List EntryId :=
  b.listing.ids

end Browser

end TreeBrowser
