import TreeBrowser.Proofs.Browser.Step
import TreeBrowser.Proofs.Selection.Range
import TreeBrowser.Proofs.Workspace.Samples

/-!
# Where a step on the keyboard starts

A step should start at the row of the cursor, or at the row of the focused entry when the cursor is
in no row. It does when there is no cursor at all. But a cursor that is out of sight, in a folder
that has been closed over it, hides the focused entry from the step: it goes to the first row, as
if there were nothing to start from.
-/

namespace TreeBrowser.Browser

variable {b : Browser} {delta : Int} {modifiers : Modifiers} {id : EntryId} {row : Nat}

def rowOf? (b : Browser) (id : EntryId) : Option Nat :=
  b.rowIds.idxOf? id

/-- The row of the cursor if that is shown, and otherwise the row of the focused entry if that is
shown. -/
def shownOrigin? (b : Browser) : Option Nat :=
  (b.cursor.bind b.rowOf?).or (b.selection.focused.bind b.rowOf?)

def clickRow (b : Browser) (row : Nat) (modifiers : Modifiers) : Browser × Outcome :=
  match b.rowIds[row]? with
  | some id => b.dispatch (.click id modifiers)
  | none => (b, .unchanged)

/-- A step from a row is a click on the row that is `delta` rows on, and nothing when there is no
such row or `delta` is zero. With no row to start from it is a click on the first row. -/
def stepFrom (b : Browser) (origin? : Option Nat) (delta : Int) (modifiers : Modifiers) :
    Browser × Outcome :=
  match origin? with
  | none => b.clickRow 0 modifiers
  | some row =>
    if 0 ≤ row + delta ∧ row + delta < b.rowIds.length ∧ delta ≠ 0 then
      b.clickRow (row + delta).toNat modifiers
    else (b, .unchanged)

/-- The cursor is out of sight and the focused entry is not, and a step from the focused entry does
not come to the first row. -/
def OverlooksFocus (b : Browser) (delta : Int) : Prop :=
  (∃ id, b.cursor = some id ∧ id ∉ b.rowIds) ∧
    ∃ row, b.selection.focused.bind b.rowOf? = some row ∧ (row + delta ≠ 0 ∨ delta = 0)

/-! ## Rows -/

theorem rowOf?_eq_some_iff : b.rowOf? id = some row ↔ b.rowIds[row]? = some id := by
  rw [rowOf?]
  constructor
  · intro h
    obtain ⟨hlt, hget, -⟩ := List.idxOf?_eq_some_iff.1 h
    rw [List.getElem?_eq_getElem hlt, hget]
  · intro h
    obtain ⟨hlt, rfl⟩ := List.getElem?_eq_some_iff.1 h
    exact idxOf?_getElem b.listing.nodup_ids hlt

theorem rowOf?_eq_none_iff : b.rowOf? id = none ↔ id ∉ b.rowIds :=
  List.idxOf?_eq_none_iff

theorem originRow?_eq :
    b.originRow? = b.cursor.elim (b.selection.focused.bind b.rowOf?) b.rowOf? := by
  rw [originRow?]
  cases b.cursor <;> rfl

theorem clickRow_eq_land (hid : b.rowIds[row]? = some id) :
    b.clickRow row modifiers = b.land id modifiers := by
  rw [clickRow, hid]
  exact click_eq_land (contains_of_mem_rowIds (List.mem_of_getElem? hid))

theorem cursor_clickRow (hrow : row < b.rowIds.length) :
    (b.clickRow row modifiers).1.cursor = some b.rowIds[row] := by
  rw [clickRow_eq_land (List.getElem?_eq_getElem hrow)]
  rfl

/-! ## Steps -/

theorem focusAdjacent_eq_clickRow (h : b.steppedRow? delta = b.rowIds[row]?) :
    b.focusAdjacent delta modifiers = b.clickRow row modifiers := by
  rw [focusAdjacent, clickRow, h]
  rfl

theorem dispatch_focusAdjacent_eq_stepFrom :
    b.dispatch (.focusAdjacent delta modifiers) = b.stepFrom b.originRow? delta modifiers := by
  change b.focusAdjacent delta modifiers = _
  cases horigin : b.originRow? with
  | none => exact focusAdjacent_eq_clickRow (steppedRow?_of_originRow?_eq_none horigin)
  | some row =>
    have hstepped : b.steppedRow? delta = _ := steppedRow?_of_originRow? horigin
    rw [stepFrom]
    by_cases hgoes : 0 ≤ row + delta ∧ row + delta < b.rowIds.length ∧ delta ≠ 0
    · rw [if_pos hgoes]
      rw [if_neg (by omega)] at hstepped
      exact focusAdjacent_eq_clickRow hstepped
    · rw [if_neg hgoes]
      have hnone : b.steppedRow? delta = none := by
        rw [hstepped]
        split
        · rfl
        · rw [List.getElem?_eq_none_iff]
          omega
      rw [focusAdjacent, hnone]

/-- From a cursor out of sight, a click on the first row differs from every step but one to the
first row, if only in where it leaves the cursor. -/
theorem stepFrom_eq_clickRow_zero_iff (hcursor : b.cursor = some id) (hid : id ∉ b.rowIds)
    (hrow : row < b.rowIds.length) :
    b.clickRow 0 modifiers = b.stepFrom (some row) delta modifiers ↔
      row + delta = 0 ∧ delta ≠ 0 := by
  have hfirst : 0 < b.rowIds.length := by omega
  have hnodup : b.rowIds.Nodup := b.listing.nodup_ids
  have hclick : (b.clickRow 0 modifiers).1.cursor = some b.rowIds[0] := cursor_clickRow hfirst
  rw [stepFrom]
  by_cases hgoes : 0 ≤ row + delta ∧ row + delta < b.rowIds.length ∧ delta ≠ 0
  · rw [if_pos hgoes]
    constructor
    · intro heq
      have hlt : (row + delta).toNat < b.rowIds.length := by omega
      rw [heq, cursor_clickRow hlt, Option.some.injEq,
        hnodup.getElem_inj_iff] at hclick
      exact ⟨by omega, hgoes.2.2⟩
    · rintro ⟨hzero, -⟩
      rw [hzero]
      rfl
  · rw [if_neg hgoes]
    constructor
    · intro heq
      rw [heq, hcursor, Option.some.injEq] at hclick
      exact absurd (hclick ▸ List.getElem_mem hfirst) hid
    · rintro ⟨hzero, hmoves⟩
      omega

/-- A step starts at the row of the cursor, and at that of the focused entry when there is no cursor.
So it starts where it should, at the first of the two that is shown, unless it overlooks the focused
entry because the cursor is out of sight. -/
theorem step_starts_at_shown_row_iff (b : Browser) (delta : Int) (modifiers : Modifiers) :
    let step := b.dispatch (.focusAdjacent delta modifiers)
    step = b.stepFrom (b.cursor.elim (b.selection.focused.bind b.rowOf?) b.rowOf?) delta modifiers ∧
    (step = b.stepFrom b.shownOrigin? delta modifiers ↔ ¬ b.OverlooksFocus delta) := by
  intro step
  have hstep : step = _ := dispatch_focusAdjacent_eq_stepFrom
  rw [originRow?_eq] at hstep
  refine ⟨hstep, ?_⟩
  rw [hstep, shownOrigin?, OverlooksFocus]
  cases hcursor : b.cursor with
  | none => simp
  | some cursor =>
    rw [Option.elim_some, Option.bind_some]
    cases hshown : b.rowOf? cursor with
    | some row =>
      have hmem : cursor ∈ b.rowIds := List.mem_of_getElem? (rowOf?_eq_some_iff.1 hshown)
      simp [hmem]
    | none =>
      have hhidden : cursor ∉ b.rowIds := rowOf?_eq_none_iff.1 hshown
      rw [Option.none_or]
      cases hfocused : b.selection.focused.bind b.rowOf? with
      | none => simp
      | some row =>
        obtain ⟨focused, -, hrow⟩ := Option.bind_eq_some_iff.1 hfocused
        obtain ⟨hlt, -⟩ := List.getElem?_eq_some_iff.1 (rowOf?_eq_some_iff.1 hrow)
        have hiff : b.stepFrom none delta modifiers = b.stepFrom (some row) delta modifiers ↔
            row + delta = 0 ∧ delta ≠ 0 := stepFrom_eq_clickRow_zero_iff hcursor hhidden hlt
        simp [hiff, hhidden]

/-- A range is drawn from a folder up to the file in the folder before it, and that is closed. A step
down should come to what follows the focused folder, but it comes to the first row. -/
theorem focus_overlooked_by_hidden_cursor :
    let b := (start (workspaceOf twoFoldersTree) {}).run
      [.expand "a", .click "b" .none, .click "x" .onlyShift, .collapse "a"]
    b.rowIds = ["a", "b", "c"] ∧ b.shownOrigin? = some 1 ∧
      (b.stepFrom b.shownOrigin? 1 .none).2.effects = [.focusChanged "c"] ∧
      (b.dispatch (.focusAdjacent 1 .none)).2.effects = [.focusChanged "a"] := by
  intro b
  have hrows : b.rowIds = ["a", "b", "c"] := by
    rw [rowIds, ← Listing.ids_unsorted named_in_order_twoFolders]
    rfl
  have hcursor : b.cursor = some "x" := rfl
  have hfocused : b.selection.focused = some "b" := rfl
  have horigin : b.originRow? = none := by
    rw [originRow?_eq, hcursor]
    exact rowOf?_eq_none_iff.2 (by rw [hrows]; decide)
  have hshown : b.shownOrigin? = some 1 := by
    rw [shownOrigin?, hcursor, hfocused]
    simp only [Option.bind_some, rowOf?, hrows]
    decide
  have hgoes : (0 : Int) ≤ (1 : Nat) + 1 ∧ (1 : Nat) + 1 < (b.rowIds.length : Int) ∧
      (1 : Int) ≠ 0 := by
    rw [hrows]
    decide
  refine ⟨hrows, hshown, ?_, ?_⟩
  · have hthird : b.rowIds[2]? = some "c" := by rw [hrows]; rfl
    rw [hshown, stepFrom, if_pos hgoes]
    change (b.clickRow 2 .none).2.effects = _
    rw [clickRow_eq_land hthird]
    rfl
  · have hfirst : b.rowIds[0]? = some "a" := by rw [hrows]; rfl
    rw [dispatch_focusAdjacent_eq_stepFrom, horigin, stepFrom, clickRow_eq_land hfirst]
    rfl

end TreeBrowser.Browser
