import TreeBrowser.Proofs.Text.NameOrder
import TreeBrowser.Workspace.Columns

/-!
# The orders of the workspace columns

Each column compares keys, and puts entries whose key is empty last. That is again a comparison of
keys, whether a key is empty and then the key itself, and so each column orders its entries totally.
It does not tell two entries apart exactly when they have the same key, and for the names when they
are of the same kind as well.
-/

namespace TreeBrowser.Workspace

def emptyLast {β : Type} [DecidableEq β] (empty : β) (order : β → β → Ordering) :
    β → β → Ordering :=
  compareLex (compareOn fun key => decide (key = empty)) order

instance {β : Type} [DecidableEq β] (empty : β) (order : β → β → Ordering)
    [Std.TransCmp order] : Std.TransCmp (emptyLast empty order) :=
  inferInstanceAs (Std.TransCmp (compareLex _ order))

instance {β : Type} [DecidableEq β] (empty : β) (order : β → β → Ordering)
    [Std.LawfulEqCmp order] : Std.LawfulEqCmp (emptyLast empty order) where
  compare_self := Ordering.then_eq_eq.2 ⟨Std.ReflCmp.compare_self, Std.ReflCmp.compare_self⟩
  eq_of_compare h := Std.LawfulEqCmp.eq_of_compare (Ordering.then_eq_eq.1 h).2

theorem emptyLast_eq {β : Type} [DecidableEq β] (empty : β) (order : β → β → Ordering)
    [Std.ReflCmp order] (a b : β) :
    emptyLast empty order a b =
      if a = empty then (if b = empty then .eq else .gt)
      else if b = empty then .lt
      else order a b := by
  rw [emptyLast, compareLex, compareOn]
  by_cases ha : a = empty
  · by_cases hb : b = empty
    · have hself : order a b = .eq := by
        rw [ha, hb]
        exact Std.ReflCmp.compare_self
      rw [if_pos ha, if_pos hb, decide_eq_true ha, decide_eq_true hb, hself]
      rfl
    · rw [if_pos ha, if_neg hb, decide_eq_true ha, decide_eq_false hb]
      rfl
  · by_cases hb : b = empty
    · rw [if_neg ha, if_pos hb, decide_eq_false ha, decide_eq_true hb]
      rfl
    · rw [if_neg ha, if_neg hb, decide_eq_false ha, decide_eq_false hb]
      rfl

variable (lower : Char → List Char)

theorem orderTexts_eq : orderTexts lower = emptyLast "" (Text.compareNamesBy lower) := by
  funext a b
  rw [emptyLast_eq, orderTexts]

theorem orderNumbers_eq : orderNumbers = emptyLast 0 (compareOn UInt64.toNat) := by
  funext a b
  rw [emptyLast_eq, orderNumbers]
  rfl

theorem orderByName_eq :
    orderByName lower = compareLex (compareOn fun e => !e.isNode)
      (Ordering.byKey Entry.name (orderTexts lower)) := by
  funext a b
  rw [orderByName, compareLex, compareOn]
  cases a.isNode <;> cases b.isNode <;> rfl

instance : Std.TransCmp (orderTexts lower) := by
  rw [orderTexts_eq]
  infer_instance

instance : Std.TransCmp orderNumbers := by
  rw [orderNumbers_eq]
  infer_instance

instance : Std.LawfulEqCmp (compareOn UInt64.toNat) where
  eq_of_compare h := UInt64.toNat_inj.1 (Nat.compare_eq_eq.1 h)

instance : Std.TransCmp (orderByName lower) := by
  rw [orderByName_eq]
  infer_instance

instance : Std.TransCmp (orderByAddedBy lower) :=
  inferInstanceAs (Std.TransCmp
    (Ordering.byKey (fun e : Entry WorkspaceEntry => e.data.addedBy.displayName) (orderTexts lower)))

instance : Std.TransCmp orderByAddedOn :=
  inferInstanceAs (Std.TransCmp (Ordering.byKey addedOnKey orderNumbers))

instance : Std.TransCmp (orderByFileType lower) :=
  inferInstanceAs (Std.TransCmp (Ordering.byKey mimeTypeKey (orderTexts lower)))

instance : Std.TransCmp (orderByStage lower) :=
  inferInstanceAs (Std.TransCmp (Ordering.byKey stageKey (orderTexts lower)))

theorem transCmp_of_mem_columnsBy {column : Column WorkspaceEntry}
    (h : column ∈ columnsBy lower) : Std.TransCmp column.order := by
  simp only [columnsBy, List.mem_cons, List.not_mem_nil, or_false] at h
  rcases h with rfl | rfl | rfl | rfl | rfl <;> infer_instance

/-! ## Keys -/

/-- `order` sorts by `key`: it is a total preorder, it takes two entries for equal when they are of
one group and have the same key, and in a group it puts those whose key is empty last. -/
structure SortsByKey {γ ι β : Type} (order : γ → γ → Ordering) (group : γ → ι) (key : γ → β)
    (empty : β) : Prop where
  compare_self : ∀ a, order a a = .eq
  eq_swap : ∀ a b, order b a = (order a b).swap
  isLE_trans : ∀ a b c, (order a b).isLE = true → (order b c).isLE = true →
    (order a c).isLE = true
  eq_iff : ∀ a b, order a b = .eq ↔ group a = group b ∧ key a = key b
  empty_last : ∀ a b, group a = group b → key a ≠ empty → key b = empty → order a b = .lt

theorem emptyLast_eq_lt {β : Type} [DecidableEq β] {empty : β} {order : β → β → Ordering}
    [Std.ReflCmp order] {a b : β} (ha : a ≠ empty) (hb : b = empty) :
    emptyLast empty order a b = .lt := by
  rw [emptyLast_eq, if_neg ha, if_pos hb]

theorem sortsByKey_byKey {γ β : Type} [DecidableEq β] {order : β → β → Ordering}
    [Std.TransCmp order] [Std.LawfulEqCmp order] (key : γ → β) (empty : β) :
    SortsByKey (Ordering.byKey key (emptyLast empty order)) (fun _ => ()) key empty where
  compare_self _ := Std.ReflCmp.compare_self
  eq_swap _ _ := Std.OrientedCmp.eq_swap
  isLE_trans _ _ _ := Std.TransCmp.isLE_trans
  eq_iff _ _ := by simp [Ordering.byKey, Std.LawfulEqCmp.compare_eq_iff_eq]
  empty_last _ _ _ ha hb := emptyLast_eq_lt ha hb

/-- What sorts by a key sorts by any other that tells the same entries apart and is empty for the
same ones. -/
theorem SortsByKey.of_key {γ ι β β' : Type} {order : γ → γ → Ordering} {group : γ → ι}
    {key : γ → β} {key' : γ → β'} {empty : β} {empty' : β'}
    (h : SortsByKey order group key empty) (hkey : ∀ a b, key a = key b ↔ key' a = key' b)
    (hempty : ∀ a, key a = empty ↔ key' a = empty') : SortsByKey order group key' empty' where
  compare_self := h.compare_self
  eq_swap := h.eq_swap
  isLE_trans := h.isLE_trans
  eq_iff a b := by rw [h.eq_iff, hkey]
  empty_last a b hgroup ha hb :=
    h.empty_last a b hgroup (fun hkey => ha ((hempty a).1 hkey)) ((hempty b).2 hb)

theorem sortsByKey_orderByName :
    SortsByKey (orderByName lower) Entry.isNode Entry.name "" where
  compare_self _ := Std.ReflCmp.compare_self
  eq_swap _ _ := Std.OrientedCmp.eq_swap
  isLE_trans _ _ _ := Std.TransCmp.isLE_trans
  eq_iff a b := by
    rw [orderByName, orderTexts_eq]
    split
    · rename_i hkind
      simp [hkind, Std.LawfulEqCmp.compare_eq_iff_eq]
    · rename_i hkind
      refine iff_of_false ?_ fun h => hkind h.1
      cases a.isNode <;> simp
  empty_last a b hkind ha hb := by
    rw [orderByName, if_pos hkind, orderTexts_eq]
    exact emptyLast_eq_lt ha hb

theorem sortsByKey_texts {γ : Type} (key : γ → String) :
    SortsByKey (Ordering.byKey key (orderTexts lower)) (fun _ => ()) key "" := by
  rw [orderTexts_eq]
  exact sortsByKey_byKey key ""

theorem sortsByKey_numbers {γ : Type} (key : γ → UInt64) :
    SortsByKey (Ordering.byKey key orderNumbers) (fun _ => ()) key 0 := by
  rw [orderNumbers_eq]
  exact sortsByKey_byKey key 0

theorem mimeTypeKey_eq (e : Entry WorkspaceEntry) :
    mimeTypeKey e = ((fileDataOf? e).map FileData.mimeType).getD "" := by
  rw [mimeTypeKey]
  cases fileDataOf? e <;> rfl

theorem sortsByKey_orderByFileType :
    SortsByKey (orderByFileType lower) (fun _ => ())
      (fun e => ((fileDataOf? e).map FileData.mimeType).getD "") "" := by
  have htype : SortsByKey (orderByFileType lower) (fun _ => ()) mimeTypeKey "" :=
    sortsByKey_texts lower mimeTypeKey
  rwa [funext mimeTypeKey_eq] at htype

theorem display_ne_empty (stage : ProcessingStage) : stage.display ≠ "" := by
  cases stage <;> simp [ProcessingStage.display]

/-- Since no stage is shown as the empty text, that text is the key of what has no stage. -/
theorem sortsByKey_orderByStage :
    SortsByKey (orderByStage lower) (fun _ => ())
      (fun e => (fileDataOf? e).map fun data => data.stage.display) none := by
  have hstage : SortsByKey (orderByStage lower) (fun _ => ()) stageKey "" :=
    sortsByKey_texts lower stageKey
  have hshown (data : FileData) : "" ≠ data.stage.display := (display_ne_empty data.stage).symm
  apply hstage.of_key
  · intro a b
    rw [stageKey, stageKey]
    cases fileDataOf? a <;> cases fileDataOf? b <;> simp [display_ne_empty, hshown]
  · intro a
    rw [stageKey]
    cases fileDataOf? a <;> simp [display_ne_empty]

/-- The five columns, for any lower-case form of characters. Each orders its entries totally, takes
for equal those that have the same key and puts those with an empty key last; by name this is so
among folders and among files. -/
theorem columns_sort_by_keys :
    ∃ byName byAdder byTime byType byStage,
      columnsBy lower =
        [⟨"Name", .left, byName⟩, ⟨"Added By", .left, byAdder⟩, ⟨"Added On", .left, byTime⟩,
         ⟨"File Type", .center, byType⟩, ⟨"Processing Stage", .center, byStage⟩] ∧
      SortsByKey byName Entry.isNode Entry.name "" ∧
      SortsByKey byAdder (fun _ => ()) (fun e => e.data.addedBy.displayName) "" ∧
      SortsByKey byTime (fun _ => ()) (fun e => e.data.addedOn.getD 0) 0 ∧
      SortsByKey byType (fun _ => ())
        (fun e => ((fileDataOf? e).map FileData.mimeType).getD "") "" ∧
      SortsByKey byStage (fun _ => ())
        (fun e => (fileDataOf? e).map fun data => data.stage.display) none :=
  ⟨_, _, _, _, _, rfl, sortsByKey_orderByName lower, sortsByKey_texts lower _,
    sortsByKey_numbers _, sortsByKey_orderByFileType lower, sortsByKey_orderByStage lower⟩

/-- A folder with the data of a file and a file with the data of a folder have no stage. -/
example :
    let data (kind : EntryContent) : WorkspaceEntry := ⟨⟨"ada", "Ada"⟩, none, none, kind⟩
    let processed : FileData := ⟨.processed, "blob", "text/plain", none⟩
    let file : Entry WorkspaceEntry := ⟨"a", "A", data (.file processed), none, .leaf false⟩
    let folder : Entry WorkspaceEntry := ⟨"b", "B", data (.file processed), none, .node []⟩
    let bare : Entry WorkspaceEntry := ⟨"c", "C", data (.folder ⟨0, 0, 0, 0⟩), none, .leaf false⟩
    orderByStage lower file folder = .lt ∧ orderByStage lower folder bare = .eq :=
  ⟨rfl, rfl⟩

end TreeBrowser.Workspace
