import TreeBrowser.Proofs.Browser.Effects
import TreeBrowser.Proofs.Browser.Refetch
import TreeBrowser.Proofs.Workspace.Samples

/-!
# Polling

A tick looks through the table of entries, but what it asks for is decided by the snapshot that the
workspace was made of: the workspace is fetched again while the snapshot holds, however deep, a file
that is being processed. How a user looks at the workspace makes no difference to this.
-/

namespace TreeBrowser

theorem ProcessingStage.isProcessing_iff {stage : ProcessingStage} :
    stage.isProcessing = true ↔ ∃ tasksRemaining note, stage = .processing tasksRemaining note := by
  cases stage with
  | processing tasksRemaining note => simp [isProcessing]
  | _ => simp [isProcessing]

def WorkspaceEntry.IsProcessing (data : WorkspaceEntry) : Prop :=
  ∃ file tasksRemaining note,
    data.kind = .file file ∧ file.stage = .processing tasksRemaining note

namespace Snapshot

/-- Some file of a snapshot is being processed. What data the folders carry does not matter. -/
inductive HoldsProcessing : Snapshot WorkspaceEntry → Prop
  | file {id : EntryId} {name : String} {data : WorkspaceEntry} {expandable : Bool} :
      data.IsProcessing → HoldsProcessing (.leaf id name data expandable)
  | inside {id : EntryId} {name : String} {data : WorkspaceEntry}
      {children : List (Snapshot WorkspaceEntry)} {c : Snapshot WorkspaceEntry} :
      c ∈ children → HoldsProcessing c → HoldsProcessing (.node id name data children)

variable {s c : Snapshot WorkspaceEntry} {parent : Option EntryId}

@[simp] theorem holdsProcessing_node_iff {id : EntryId} {name : String} {data : WorkspaceEntry}
    {children : List (Snapshot WorkspaceEntry)} :
    (node id name data children).HoldsProcessing ↔ ∃ c ∈ children, c.HoldsProcessing := by
  constructor
  · intro h
    cases h with
    | inside hc h => exact ⟨_, hc, h⟩
  · rintro ⟨c, hc, h⟩
    exact .inside hc h

@[simp] theorem holdsProcessing_leaf_iff {id : EntryId} {name : String} {data : WorkspaceEntry}
    {expandable : Bool} :
    (leaf id name data expandable).HoldsProcessing ↔ data.IsProcessing := by
  constructor
  · intro h
    cases h with
    | file h => exact h
  · exact .file

theorem HoldsProcessing.of_mem_children (hc : c ∈ s.children) (h : c.HoldsProcessing) :
    s.HoldsProcessing := by
  cases s with
  | node => exact .inside hc h
  | leaf => cases hc

theorem HoldsProcessing.of_occurs (hc : s.Occurs parent c) (h : c.HoldsProcessing) :
    s.HoldsProcessing := by
  induction hc with
  | top => exact h
  | child _ hc ih => exact ih (h.of_mem_children hc)

theorem HoldsProcessing.exists_occurs (h : c.HoldsProcessing) (hc : s.Occurs parent c) :
    ∃ parent' file, s.Occurs parent' file ∧ (file.entry parent').isLeaf = true ∧
      (file.entry parent').data.IsProcessing := by
  induction h generalizing parent with
  | @file id name data expandable hdata =>
    exact ⟨parent, .leaf id name data expandable, hc, rfl, hdata⟩
  | @inside id name data children c hmem _ ih => exact ih (hc.child hmem)

theorem holdsProcessing_iff :
    s.HoldsProcessing ↔ ∃ e ∈ s.entries, e.isLeaf = true ∧ e.data.IsProcessing := by
  constructor
  · intro h
    obtain ⟨parent, file, hfile, hleaf, hdata⟩ := h.exists_occurs .top
    exact ⟨_, mem_entries_iff.2 ⟨parent, file, hfile, rfl⟩, hleaf, hdata⟩
  · rintro ⟨e, he, hleaf, hdata⟩
    obtain ⟨parent, file, hfile, rfl⟩ := mem_entries_iff.1 he
    apply HoldsProcessing.of_occurs hfile
    cases file with
    | node => cases hleaf
    | leaf => exact .file hdata

end Snapshot

namespace Workspace

variable {s : WorkspaceSnapshot} {w : Workspace}

theorem any_fileDataOf?_iff {e : Entry WorkspaceEntry} :
    ((fileDataOf? e).any fun data => data.stage.isProcessing) = true ↔
      e.isLeaf = true ∧ e.data.IsProcessing := by
  cases hleaf : e.isLeaf with
  | false => simp [fileDataOf?, hleaf]
  | true =>
    rw [fileDataOf?, if_pos hleaf, WorkspaceEntry.fileData?, WorkspaceEntry.IsProcessing]
    cases e.data.kind with
    | file data => simp [ProcessingStage.isProcessing_iff]
    | folder => simp

theorem hasProcessingFiles_iff (h : ofSnapshot s = .ok w) :
    w.hasProcessingFiles = true ↔ s.rootNode.HoldsProcessing := by
  have hentries : s.rootNode.entries = w.tree.entries :=
    (Tree.ofSnapshot_eq_ok_iff.1 (ofSnapshot_eq_ok_iff.1 h).2).2
  rw [hasProcessingFiles, List.any_eq_true, Snapshot.holdsProcessing_iff, hentries]
  simp only [any_fileDataOf?_iff]

theorem id_of_ofSnapshot (h : ofSnapshot s = .ok w) : w.id = s.metadata.id := by
  rw [id, (ofSnapshot_eq_ok_iff.1 h).1]

end Workspace

namespace Browser

variable {b : Browser} {snapshot : WorkspaceSnapshot}

theorem tick_eq (h : Workspace.ofSnapshot snapshot = .ok b.workspace) :
    (snapshot.rootNode.HoldsProcessing →
      b.tick = (b, ⟨[.refreshWorkspace snapshot.metadata.id], false⟩)) ∧
    (¬ snapshot.rootNode.HoldsProcessing → b.tick = (b, .unchanged)) := by
  rw [← Workspace.hasProcessingFiles_iff h, ← Workspace.id_of_ofSnapshot h, tick]
  exact ⟨fun hprocessing => if_pos hprocessing, fun hidle => if_neg hidle⟩

/-- From the time when a browser gets a workspace that was made of a snapshot until it gets another
one, whatever is done to it in between: a tick asks for the workspace to be fetched again, and for
nothing else, when some file of the snapshot is being processed, and it asks for nothing when none
is. Either way the browser stays as it was. -/
theorem tick_polls_processing (hbuilt : Workspace.ofSnapshot snapshot = .ok b.workspace)
    (actions : List Action) (hkept : ∀ w, .replaceWorkspace w ∉ actions) :
    (snapshot.rootNode.HoldsProcessing →
      (b.run actions).dispatch .tick =
        (b.run actions, ⟨[.refreshWorkspace snapshot.metadata.id], false⟩)) ∧
    (¬ snapshot.rootNode.HoldsProcessing →
      (b.run actions).dispatch .tick = (b.run actions, .unchanged)) := by
  have hworkspace : (b.run actions).workspace = b.workspace :=
    workspace_run rfl fun w hw => absurd hw (hkept w)
  rw [← hworkspace] at hbuilt
  exact tick_eq hbuilt

def misplacedData (stage : ProcessingStage) : WorkspaceSnapshot where
  metadata := (workspaceOf outerTree).metadata
  rootNode :=
    folderOf "root"
      [.node "a" "a" (fileData (.processing 1 none))
        [.leaf "x" "x" ⟨⟨"ada", "Ada"⟩, none, none, .folder ⟨0, 0, 1, 0⟩⟩ true,
          .leaf "y" "y" (fileData stage) false]]
where
  fileData (stage : ProcessingStage) : WorkspaceEntry :=
    ⟨⟨"ada", "Ada"⟩, none, none, .file ⟨stage, "", "", none⟩⟩

theorem tick_polls_processing_misplacedData :
    let actions : List Action :=
      [.expand "a", .click "y" .none, .beginRename "y", .sortBy "Name", .collapse "a"]
    (misplacedData (.processing 2 none)).rootNode.HoldsProcessing ∧
    ¬ (misplacedData .processed).rootNode.HoldsProcessing ∧
    ∃ busy idle,
      Workspace.ofSnapshot (misplacedData (.processing 2 none)) = .ok busy ∧
      Workspace.ofSnapshot (misplacedData .processed) = .ok idle ∧
      (∀ w, .replaceWorkspace w ∉ actions) ∧
      (((start busy {}).run actions).dispatch .tick).2 = ⟨[.refreshWorkspace "w"], false⟩ ∧
      (((start idle {}).run actions).dispatch .tick).2 = .unchanged := by
  intro actions
  have hbusy : (misplacedData (.processing 2 none)).rootNode.HoldsProcessing := by
    simp [misplacedData, folderOf, misplacedData.fileData, WorkspaceEntry.IsProcessing]
  have hidle : ¬ (misplacedData .processed).rootNode.HoldsProcessing := by
    simp [misplacedData, folderOf, misplacedData.fileData, WorkspaceEntry.IsProcessing]
  have hkept : ∀ w, .replaceWorkspace w ∉ actions := by simp [actions]
  have hexists (stage : ProcessingStage) :
      ∃ w, Workspace.ofSnapshot (misplacedData stage) = .ok w := by
    have hnodup : (misplacedData stage).rootNode.ids.Nodup := by
      show ["root", "a", "x", "y"].Nodup
      decide
    obtain ⟨t, ht⟩ := Tree.exists_ofSnapshot_iff.2 ⟨rfl, hnodup⟩
    exact ⟨⟨_, t⟩, Workspace.ofSnapshot_eq_ok_iff.2 ⟨rfl, ht⟩⟩
  obtain ⟨busy, hbuiltBusy⟩ := hexists (.processing 2 none)
  obtain ⟨idle, hbuiltIdle⟩ := hexists .processed
  refine ⟨hbusy, hidle, busy, idle, hbuiltBusy, hbuiltIdle, hkept, ?_, ?_⟩
  · rw [(tick_polls_processing (b := start busy {}) hbuiltBusy actions hkept).1 hbusy]
    rfl
  · rw [(tick_polls_processing (b := start idle {}) hbuiltIdle actions hkept).2 hidle]

end Browser

end TreeBrowser
