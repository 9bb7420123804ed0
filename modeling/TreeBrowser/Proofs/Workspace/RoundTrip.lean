import TreeBrowser.Proofs.Tree.RoundTrip
import TreeBrowser.Proofs.Tree.Wire
import TreeBrowser.Proofs.Workspace.Wire
import TreeBrowser.Settings.Basic
import TreeBrowser.Workspace.Basic

/-!
# Round trips

Everything that is sent or kept is read back as it was written. A workspace that was read from a text
can be written again: the new text holds the same metadata and the same snapshot, is no deeper than
the first one, and is accepted as it was.
-/

namespace TreeBrowser

open Json

/-! ## Settings -/

theorem MissingEndpoint.wire : Wire MissingEndpoint.ofJson? MissingEndpoint.toJson where
  read_write policy := by cases policy <;> rfl
  exact _ := trivial
  depth_le _ := Nat.zero_le _

theorem Settings.wire : Wire Settings.ofJson? Settings.toJson where
  read_write s := by
    have hlogFilter := Wire.str.optional_write (nofun) s.logFilter
    simp [ofJson?, toJson, record?, Found.defaulted, str?, bool?, MissingEndpoint.wire.read_write,
      hlogFilter]
  exact s := by
    simp [toJson, Exact, ExactMembers, exactMembers_optionalMember, MissingEndpoint.wire.exact]
  depth_le {v s} hread := by
    obtain ⟨members, hmembers, -⟩ := Option.bind_eq_some_iff.1 hread
    have hdeeper := depthMembers_lt_of_record? hmembers
    have hlogFilter := depthMembers_optionalMember .str (fun _ => rfl) "log_filter" s.logFilter
    have hone : s.toJson.depth = 1 := by
      simp [toJson, depth, depthMembers, hlogFilter, MissingEndpoint.toJson]
    omega

/-! ## Workspaces -/

theorem WorkspaceSnapshot.wire : Wire WorkspaceSnapshot.ofJson? WorkspaceSnapshot.toJson where
  read_write s := by
    have hmetadata := s.metadata.ofMembers?_toMembers
      [("rootNode", s.rootNode.toJson WorkspaceEntry.toJson)] (by simp [WorkspaceMetadata.fields])
    have hroot := (Snapshot.wire WorkspaceEntry.wire).read_write s.rootNode
    have hbefore : find "rootNode" s.metadata.toMembers = .missing := by
      simp [WorkspaceMetadata.toMembers]
    simp [ofJson?, toJson, object?, hmetadata, hbefore, Found.required, hroot]
  exact s := by
    refine exactMembers_append.2 ⟨s.metadata.exactMembers_toMembers, ?_, trivial⟩
    exact (Snapshot.wire WorkspaceEntry.wire).exact s.rootNode
  depth_le {v s} hread := by
    cases v with
    | obj members =>
      simp only [ofJson?, object?, Option.bind_eq_bind, Option.bind_some, Option.bind_eq_some_iff,
        Option.pure_def, Option.some.injEq, Found.required_eq_some_iff] at hread
      obtain ⟨metadata, hmetadata, rootNode, ⟨u, hu, hroot⟩, rfl⟩ := hread
      have hle := WorkspaceMetadata.depthMembers_toMembers_le hmetadata
      have hle' := (Snapshot.wire WorkspaceEntry.wire).depth_le hroot
      have hheld := depth_le_depthMembers hu
      show depthMembers (metadata.toMembers ++
        [("rootNode", rootNode.toJson WorkspaceEntry.toJson)]) + 1 ≤ depthMembers members + 1
      rw [depthMembers_append, depthMembers, depthMembers]
      omega
    | _ => cases hread

namespace Workspace

theorem ofSnapshot_eq_ok_iff {s : WorkspaceSnapshot} {w : Workspace} :
    ofSnapshot s = .ok w ↔ s.metadata = w.metadata ∧ Tree.ofSnapshot s.rootNode = .ok w.tree := by
  obtain ⟨metadata, tree⟩ := w
  rw [ofSnapshot]
  cases Tree.ofSnapshot s.rootNode with
  | error e => simp [bind, Except.bind]
  | ok t => simp [bind, Except.bind, pure, Except.pure]

theorem ofText_eq_ok_iff {text : String} {w : Workspace} :
    ofText text = .ok w ↔
      ∃ s, (ofWholeDocument? text).bind WorkspaceSnapshot.ofJson? = some s ∧
        ofSnapshot s = .ok w := by
  have hmap (r : Except TreeError Workspace) :
      r.mapError WorkspaceError.tree = .ok w ↔ r = .ok w := by
    cases r <;> simp [Except.mapError]
  rw [ofText]
  cases (ofWholeDocument? text).bind WorkspaceSnapshot.ofJson? with
  | none => simp
  | some s => simp [hmap]

theorem toSnapshot_of_ofSnapshot {s : WorkspaceSnapshot} {w : Workspace} (h : ofSnapshot s = .ok w) :
    w.toSnapshot = s := by
  obtain ⟨hmetadata, htree⟩ := ofSnapshot_eq_ok_iff.1 h
  rw [toSnapshot, ← hmetadata, Tree.toSnapshot_eq (Tree.ofSnapshot_eq_ok_iff.1 htree).2]

theorem ofText_toText (w : Workspace) (h : w.toSnapshot.toJson.depth ≤ depthLimit) :
    ofText w.toSnapshot.toJson.toText = .ok w := by
  have hwritten := ofWholeDocument?_toText (WorkspaceSnapshot.wire.exact w.toSnapshot) h
  have hread := WorkspaceSnapshot.wire.read_write w.toSnapshot
  have hw : ofSnapshot w.toSnapshot = .ok w :=
    ofSnapshot_eq_ok_iff.2 ⟨rfl, Tree.ofSnapshot_toSnapshot w.tree⟩
  refine ofText_eq_ok_iff.2 ⟨w.toSnapshot, ?_, hw⟩
  rw [hwritten, Option.bind_some, hread]

/-- Users, stages, entry data, snapshots, metadata, workspaces and settings are read back as they
were written. A workspace that a text describes is written no deeper than the text, its text is read
as the value that was written, the same workspace is read from it, and writing that one gives the
same value again. -/
theorem written_is_read_back :
    (∀ user, PartialUser.ofJson? user.toJson = some user) ∧
    (∀ stage, ProcessingStage.ofJson? ProcessingStage.Tag.named? stage.toJson = some stage ∧
      ProcessingStage.ofJson? ProcessingStage.Tag.namedOrNumbered? stage.toJson = some stage) ∧
    (∀ entry, WorkspaceEntry.ofJson? entry.toJson = some entry) ∧
    (∀ s, Snapshot.ofJson? WorkspaceEntry.ofJson? (s.toJson WorkspaceEntry.toJson) = some s) ∧
    (∀ m, WorkspaceMetadata.ofJson? m.toJson = some m) ∧
    (∀ s, WorkspaceSnapshot.ofJson? s.toJson = some s) ∧
    (∀ s, Settings.ofJson? s.toJson = some s) ∧
    ∀ text w, ofText text = .ok w →
      ∃ v, Json.ofText? text = some v ∧ WorkspaceSnapshot.ofJson? v = some w.toSnapshot ∧
        w.toSnapshot.toJson.depth ≤ v.depth ∧
        Json.ofText? w.toSnapshot.toJson.toText = some w.toSnapshot.toJson ∧
        ∃ w', ofText w.toSnapshot.toJson.toText = .ok w' ∧ w'.metadata = w.metadata ∧
          w'.tree.toSnapshot = w.tree.toSnapshot ∧
          w'.toSnapshot.toJson = w.toSnapshot.toJson := by
  refine ⟨PartialUser.wire.read_write, ?_, WorkspaceEntry.wire.read_write,
    (Snapshot.wire WorkspaceEntry.wire).read_write, WorkspaceMetadata.wire.read_write,
    WorkspaceSnapshot.wire.read_write, Settings.wire.read_write, ?_⟩
  · intro stage
    exact ⟨ProcessingStage.wire_named.read_write stage,
      ProcessingStage.wire_namedOrNumbered.read_write stage⟩
  · intro text w h
    obtain ⟨s, hs, hw⟩ := ofText_eq_ok_iff.1 h
    obtain ⟨v, hv, hread⟩ := Option.bind_eq_some_iff.1 hs
    obtain ⟨hvalue, hlimit, -⟩ := ofWholeDocument?_eq_some_iff.1 hv
    -- What is written is the very snapshot that was read, so the limit of the first text is enough.
    obtain rfl := toSnapshot_of_ofSnapshot hw
    have hdepth := WorkspaceSnapshot.wire.depth_le hread
    have hwritten := ofText?_toText (WorkspaceSnapshot.wire.exact w.toSnapshot)
    have hagain := ofText_toText w (Nat.le_trans hdepth hlimit)
    exact ⟨v, hvalue, hread, hdepth, hwritten, w, hagain, rfl, rfl, rfl⟩

def annotated : WorkspaceSnapshot :=
  let ada : PartialUser := ⟨"ada", "Ada \"A.\" L."⟩
  { metadata := ⟨"w", "W", true, "", ada, ada, [⟨"bob", "Bob"⟩]⟩
    rootNode := .node "root" "Root" ⟨ada, none, none, .folder ⟨1, 0, 1, 0⟩⟩
      [.leaf "x" "X" ⟨ada, some 18446744073709551615, some "root",
        .file ⟨.processing 2 (some "one\n\\two"), "blob://x", "text/plain", some 0⟩⟩ true] }

theorem written_is_read_back_annotated :
    ∃ text w, ofText text = .ok w ∧ w.toSnapshot = annotated ∧
      ∃ w', ofText w.toSnapshot.toJson.toText = .ok w' ∧ w'.tree.toSnapshot = annotated.rootNode := by
  have htree : annotated.rootNode.isNode = true ∧ annotated.rootNode.ids.Nodup := ⟨rfl, by decide⟩
  obtain ⟨t, ht⟩ := Tree.exists_ofSnapshot_iff.2 htree
  obtain ⟨w, hw⟩ : ∃ w, ofSnapshot annotated = .ok w :=
    ⟨⟨annotated.metadata, t⟩, ofSnapshot_eq_ok_iff.2 ⟨rfl, ht⟩⟩
  have hsnapshot := toSnapshot_of_ofSnapshot hw
  have hdepth : w.toSnapshot.toJson.depth ≤ depthLimit := by
    rw [hsnapshot]
    decide
  have htext := ofText_toText w hdepth
  obtain ⟨-, -, -, -, -, -, -, hround⟩ := written_is_read_back
  obtain ⟨-, -, -, -, -, w', hagain, -, hnested, -⟩ := hround _ w htext
  have hroot : w.tree.toSnapshot = annotated.rootNode :=
    congrArg WorkspaceSnapshot.rootNode hsnapshot
  exact ⟨_, w, htext, hsnapshot, w', hagain, hnested.trans hroot⟩

end Workspace

end TreeBrowser
