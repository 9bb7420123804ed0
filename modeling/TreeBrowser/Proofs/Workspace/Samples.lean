import TreeBrowser.Workspace.Columns

/-!
# Small workspaces

The trees at which theorems about browsers are looked at: one folder in another, and two folders
beside a file.
-/

namespace TreeBrowser.Browser

def folderOf (id : EntryId) (children : List (Snapshot WorkspaceEntry)) : Snapshot WorkspaceEntry :=
  .node id id ⟨⟨"ada", "Ada"⟩, none, none, .folder ⟨0, 0, 0, 0⟩⟩ children

def workspaceOf (tree : Tree WorkspaceEntry) : Workspace :=
  ⟨⟨"w", "W", false, "", ⟨"ada", "Ada"⟩, ⟨"ada", "Ada"⟩, []⟩, tree⟩

def outerTree : Tree WorkspaceEntry where
  root := (folderOf "root" [folderOf "a" []]).entry none
  others := [(folderOf "a" []).entry (some "root")]
  nested := ⟨folderOf "root" [folderOf "a" []], rfl, rfl⟩
  nodup := by decide

def twoFolders : Snapshot WorkspaceEntry :=
  let data : WorkspaceEntry := ⟨⟨"ada", "Ada"⟩, none, none, .folder ⟨0, 0, 0, 0⟩⟩
  .node "root" "Root" data [.node "a" "A" data [.leaf "x" "X" data false],
    .node "b" "B" data [], .leaf "c" "C" data false]

def twoFoldersTree : Tree WorkspaceEntry where
  root := twoFolders.entry none
  others := twoFolders.placed.map Snapshot.placedEntry
  nested := ⟨twoFolders, rfl, rfl⟩
  nodup := by decide

theorem named_in_order_twoFolders : ∀ column ∈ Workspace.defaultColumns.active?,
    ∀ e ∈ twoFoldersTree.entries,
      (twoFoldersTree.childrenOf e).Pairwise fun x y => (column.order x y).isLE = true := by
  decide +kernel

end TreeBrowser.Browser
