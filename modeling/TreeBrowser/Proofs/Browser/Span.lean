import TreeBrowser.Proofs.Browser.Step
import TreeBrowser.Proofs.Selection.Range
import TreeBrowser.Proofs.Workspace.Samples

/-!
# Ranges drawn by mouse and keyboard

While a user only clicks rows and steps from row to row, with no key held down but shift, all that
matters of a browser is where the range begins and where the cursor is. `Span.after` says how a
gesture moves these two rows; a run of gestures on the browser is a run of `Span.after`.
-/

namespace TreeBrowser

/-- A gesture on `n` rows, with shift held down or with no key. -/
inductive RowGesture (n : Nat) where
  | click (row : Fin n) (shift : Bool)
  | step (delta : Int) (shift : Bool)

structure Span (n : Nat) where
  anchor : Fin n
  cursor : Fin n

namespace RowGesture

variable {n : Nat}

def shift : RowGesture n → Bool
  | click _ shift => shift
  | step _ shift => shift

def action (rows : List EntryId) : RowGesture rows.length → Action
  | click row shift => .click rows[row] ⟨false, shift⟩
  | step delta shift => .focusAdjacent delta ⟨false, shift⟩

/-- The row to which a gesture comes. A step goes `delta` rows on from the cursor, or to the first
row while there is no cursor; it is ignored when there is no such row or the cursor is in it. -/
def target? : RowGesture n → Option (Fin n) → Option (Fin n)
  | click row _, _ => some row
  | step _ _, none => if h : 0 < n then some ⟨0, h⟩ else none
  | step delta _, some cursor =>
    if h : 0 ≤ cursor + delta ∧ cursor + delta < n ∧ delta ≠ 0 then
      some ⟨(cursor + delta).toNat, by omega⟩
    else none

end RowGesture

namespace Span

variable {n : Nat}

/-- A plain gesture takes anchor and cursor to its row. With shift held down only the cursor goes
there; the anchor of the very first gesture is then the first row. -/
def moved (span? : Option (Span n)) (row : Fin n) (shift : Bool) : Span n :=
  if shift then ⟨(span?.map anchor).getD ⟨0, row.pos⟩, row⟩ else ⟨row, row⟩

def after (span? : Option (Span n)) (gesture : RowGesture n) : Option (Span n) :=
  match gesture.target? (span?.map cursor) with
  | some row => some (moved span? row gesture.shift)
  | none => span?

def afterAll (gestures : List (RowGesture n)) : Option (Span n) :=
  gestures.foldl after none

end Span

/-! ## Drawing a range anew -/

theorem Selection.shiftClick_eq {s : Selection} {rows : List EntryId} (hnodup : rows.Nodup)
    {i j : Fin rows.length} (hanchor : (s.focused <|> rows.head?) = some rows[i])
    (hselected : ∀ id ∈ s.selected, id ∈ s.lastRange ∨ id = rows[i]) (policy : MissingEndpoint) :
    s.shiftClick rows rows[j] policy =
      ⟨between rows i j, some rows[i], between rows i j⟩ := by
  have hrange : rangeBetween rows rows[i] rows[j] policy = between rows i j :=
    rangeBetween_getElem hnodup i.isLt j.isLt policy
  have hmem : rows[i] ∈ between rows i j :=
    getElem_mem_slice i.isLt (Nat.min_le_left _ _) (Nat.le_max_left _ _)
  have hmerge : mergeRange s.lastRange (between rows i j) s.selected = between rows i j := by
    apply mergeRange_of_superseded (nodup_between hnodup i j)
    intro id hid
    rcases hselected id hid with hlast | rfl
    · exact Or.inl hlast
    · exact Or.inr hmem
  unfold shiftClick
  rw [hanchor]
  simp only [hrange, hmerge]

namespace Browser

variable {b : Browser} {rows : List EntryId}

/-! ## One gesture -/

theorem landing?_action (hrows : b.rowIds = rows) {cursor? : Option (Fin rows.length)}
    (horigin : b.originRow? = cursor?.map Fin.val) (gesture : RowGesture rows.length) :
    b.landing? (gesture.action rows) =
      (gesture.target? cursor?).map fun row => (rows[row], ⟨false, gesture.shift⟩) := by
  subst hrows
  cases gesture with
  | click row shift =>
    have hcontains : b.tree.contains b.rowIds[row] = true :=
      contains_of_mem_rowIds (List.getElem_mem row.isLt)
    exact if_pos hcontains
  | step delta shift =>
    show (b.steppedRow? delta).map _ = _
    cases cursor? with
    | none =>
      rw [steppedRow?_of_originRow?_eq_none horigin, RowGesture.target?]
      split
      · rename_i hpos
        rw [List.getElem?_eq_getElem hpos]
        rfl
      · rename_i hempty
        rw [List.getElem?_eq_none (by omega)]
        rfl
    | some cursor =>
      rw [steppedRow?_of_originRow? horigin, RowGesture.target?]
      by_cases hgoes : 0 ≤ cursor + delta ∧ cursor + delta < b.rowIds.length ∧ delta ≠ 0
      · have hlt : (cursor + delta).toNat < b.rowIds.length := by omega
        rw [dif_pos hgoes, if_neg (by omega), List.getElem?_eq_getElem hlt]
        rfl
      · rw [dif_neg hgoes]
        split
        · rfl
        · rw [List.getElem?_eq_none (by omega)]
          rfl

theorem dispatch_action_of_target? (hrows : b.rowIds = rows)
    {cursor? : Option (Fin rows.length)} (horigin : b.originRow? = cursor?.map Fin.val)
    {gesture : RowGesture rows.length} {row : Fin rows.length}
    (htarget : gesture.target? cursor? = some row) :
    b.dispatch (gesture.action rows) = b.land rows[row] ⟨false, gesture.shift⟩ := by
  apply dispatch_of_landing?
  rw [landing?_action hrows horigin, htarget]
  rfl

theorem dispatch_action_of_target?_eq_none (hrows : b.rowIds = rows)
    {cursor? : Option (Fin rows.length)} (horigin : b.originRow? = cursor?.map Fin.val)
    {gesture : RowGesture rows.length} (htarget : gesture.target? cursor? = none) :
    b.dispatch (gesture.action rows) = (b, .unchanged) := by
  have hlands := landing?_action hrows horigin gesture
  rw [htarget] at hlands
  cases gesture with
  | click => exact dispatch_click_of_landing?_eq_none hlands
  | step => exact dispatch_focusAdjacent_of_landing?_eq_none hlands

/-! ## The rows of anchor and cursor -/

/-- The browser shows the rows, and of these the range from the anchor to the cursor is selected. -/
structure Shows (b : Browser) (rows : List EntryId) (span : Span rows.length) : Prop where
  rowIds : b.rowIds = rows
  focused : b.selection.focused = some rows[span.anchor]
  cursor : b.cursor = some rows[span.cursor]
  selected : b.selection.selected = between rows span.anchor span.cursor
  /-- The next range gesture replaces all that is selected. -/
  superseded : ∀ id ∈ b.selection.selected, id ∈ b.selection.lastRange ∨ id = rows[span.anchor]

/-- Nothing is selected or focused, and no gesture has landed anywhere. -/
structure Untouched (b : Browser) (rows : List EntryId) : Prop where
  rowIds : b.rowIds = rows
  selection : b.selection = .empty
  cursor : b.cursor = none

theorem nodup_rowIds (hrows : b.rowIds = rows) : rows.Nodup := by
  rw [← hrows]
  exact b.listing.nodup_ids

theorem Untouched.originRow? (h : b.Untouched rows) : b.originRow? = none := by
  rw [Browser.originRow?, h.cursor, h.selection]
  rfl

theorem Shows.originRow? {span : Span rows.length} (h : b.Shows rows span) :
    b.originRow? = some span.cursor.val := by
  rw [Browser.originRow?, h.cursor, h.rowIds]
  exact idxOf?_getElem (nodup_rowIds h.rowIds) span.cursor.isLt

theorem shows_land_plain (hrows : b.rowIds = rows) (row : Fin rows.length) :
    (b.land rows[row] ⟨false, false⟩).1.Shows rows ⟨row, row⟩ where
  rowIds := hrows
  focused := rfl
  cursor := rfl
  selected := (between_self row.isLt).symm
  superseded _ hid := Or.inr (List.mem_singleton.1 hid)

theorem shows_land_shift (hrows : b.rowIds = rows) {anchor : Fin rows.length}
    (hanchor : (b.selection.focused <|> rows.head?) = some rows[anchor])
    (hselected : ∀ id ∈ b.selection.selected,
      id ∈ b.selection.lastRange ∨ id = rows[anchor])
    (row : Fin rows.length) :
    (b.land rows[row] ⟨false, true⟩).1.Shows rows ⟨anchor, row⟩ := by
  have hclicked : b.clicked rows[row] ⟨false, true⟩ =
      ⟨between rows anchor row, some rows[anchor], between rows anchor row⟩ := by
    show b.selection.shiftClick b.rowIds rows[row] b.missingEndpoint = _
    rw [hrows]
    exact Selection.shiftClick_eq (nodup_rowIds hrows) hanchor hselected _
  rw [land, hclicked]
  exact ⟨hrows, rfl, rfl, rfl, fun _ hid => Or.inl hid⟩

theorem Untouched.shows_land (h : b.Untouched rows) (row : Fin rows.length) (shift : Bool) :
    (b.land rows[row] ⟨false, shift⟩).1.Shows rows (Span.moved none row shift) := by
  cases shift with
  | false => exact shows_land_plain h.rowIds row
  | true =>
    have hfirst : rows.head? = some rows[(⟨0, row.pos⟩ : Fin rows.length)] :=
      List.head?_eq_getElem?.trans (List.getElem?_eq_getElem row.pos)
    refine shows_land_shift h.rowIds ?_ ?_ row
    · rw [h.selection]
      exact hfirst
    · rw [h.selection]
      exact fun _ hid => absurd hid List.not_mem_nil

theorem Shows.shows_land {span : Span rows.length} (h : b.Shows rows span)
    (row : Fin rows.length) (shift : Bool) :
    (b.land rows[row] ⟨false, shift⟩).1.Shows rows (Span.moved (some span) row shift) := by
  cases shift with
  | false => exact shows_land_plain h.rowIds row
  | true =>
    refine shows_land_shift h.rowIds ?_ h.superseded row
    rw [h.focused]
    rfl

/-! ## Whole runs -/

/-- What a browser that began as `b` is like when anchor and cursor are where `span?` says. -/
def Tracks (b : Browser) (rows : List EntryId) : Option (Span rows.length) → Browser → Prop
  | none, b' => b' = b
  | some span, b' => b'.Shows rows span

theorem Tracks.rowIds_originRow? (hb : b.Untouched rows) {span? : Option (Span rows.length)}
    {b' : Browser} (h : b.Tracks rows span? b') :
    b'.rowIds = rows ∧ b'.originRow? = (span?.map Span.cursor).map Fin.val := by
  cases span? with
  | none =>
    obtain rfl : b' = b := h
    exact ⟨hb.rowIds, hb.originRow?⟩
  | some span => exact ⟨Shows.rowIds h, Shows.originRow? h⟩

theorem Tracks.dispatch (hb : b.Untouched rows) {span? : Option (Span rows.length)}
    {b' : Browser} (h : b.Tracks rows span? b') (gesture : RowGesture rows.length) :
    b.Tracks rows (Span.after span? gesture) (b'.dispatch (gesture.action rows)).1 := by
  obtain ⟨hrows, horigin⟩ := h.rowIds_originRow? hb
  unfold Span.after
  cases htarget : gesture.target? (span?.map Span.cursor) with
  | none =>
    rw [dispatch_action_of_target?_eq_none hrows horigin htarget]
    exact h
  | some row =>
    rw [dispatch_action_of_target? hrows horigin htarget]
    cases span? with
    | none =>
      obtain rfl : b' = b := h
      exact hb.shows_land row gesture.shift
    | some span => exact Shows.shows_land h row gesture.shift

theorem Tracks.run (hb : b.Untouched rows) {span? : Option (Span rows.length)} {b' : Browser}
    (h : b.Tracks rows span? b') (gestures : List (RowGesture rows.length)) :
    b.Tracks rows (gestures.foldl Span.after span?)
      (b'.run (gestures.map (RowGesture.action rows))) := by
  induction gestures generalizing span? b' with
  | nil => exact h
  | cons gesture gestures ih => exact ih (h.dispatch hb gesture)

/-- From any reachable state in which nothing is selected, nothing has the focus and there is no
cursor, and for any gestures on its rows: while none has been accepted the browser is as it was, and
from then on the anchor has the focus, the cursor is where it should be, and the rows from the one to
the other are selected, in their order. The next gesture is ignored and changes nothing when it comes
to no row, and otherwise tells of a new focus when shift is not held down. -/
theorem range_follows_gestures (hb : b.Reachable) (hrows : b.rowIds = rows)
    (hselected : b.selection.selected = []) (hfocused : b.selection.focused = none)
    (hcursor : b.cursor = none) (gestures : List (RowGesture rows.length)) :
    let b' := b.run (gestures.map (RowGesture.action rows))
    let span? := Span.afterAll gestures
    b'.rowIds = rows ∧
    (span? = none → b' = b) ∧
    (∀ span, span? = some span →
      b'.selection.focused = some rows[span.anchor] ∧
      b'.cursor = some rows[span.cursor] ∧
      b'.selection.selected = between rows span.anchor span.cursor) ∧
    ∀ next : RowGesture rows.length,
      (next.target? (span?.map Span.cursor) = none →
        b'.dispatch (next.action rows) = (b', .unchanged)) ∧
      ∀ row, next.target? (span?.map Span.cursor) = some row →
        (b'.dispatch (next.action rows)).2.effects =
          if next.shift then [] else [.focusChanged rows[row]] := by
  intro b' span?
  -- The last range is part of the selection, so none is recorded while nothing is selected.
  have hlastRange : b.selection.lastRange = [] := by
    have hsuffix := hb.sound.selection.lastRange
    rwa [hselected, List.suffix_nil] at hsuffix
  have huntouched : b.Untouched rows := by
    refine ⟨hrows, ?_, hcursor⟩
    cases hselection : b.selection
    simp only [hselection] at hselected hfocused hlastRange
    rw [hselected, hfocused, hlastRange]
    rfl
  have hstart : b.Tracks rows none b := rfl
  have htracks : b.Tracks rows span? b' := hstart.run huntouched gestures
  obtain ⟨hrows', horigin⟩ := htracks.rowIds_originRow? huntouched
  refine ⟨hrows', ?_, ?_, fun next => ⟨?_, fun row htarget => ?_⟩⟩
  · intro hspan
    rw [hspan] at htracks
    exact htracks
  · intro span hspan
    rw [hspan] at htracks
    exact ⟨Shows.focused htracks, Shows.cursor htracks, Shows.selected htracks⟩
  · exact dispatch_action_of_target?_eq_none hrows' horigin
  · rw [dispatch_action_of_target? hrows' horigin htarget]
    rfl

/-- The range grows downwards from the middle row and is then drawn upwards; a step beyond the first
row is ignored. -/
theorem range_flips_across_anchor :
    let b := start (workspaceOf twoFoldersTree) {}
    let rows := ["a", "b", "c"]
    let gestures : List (RowGesture rows.length) :=
      [.click 1 false, .step 1 true, .step (-2) true, .step (-1) false]
    let b' := b.run (gestures.map (RowGesture.action rows))
    b.Reachable ∧ b.rowIds = rows ∧ b.selection.selected = [] ∧ b.selection.focused = none ∧
      b.cursor = none ∧ b'.selection.selected = ["a", "b"] ∧ b'.selection.focused = some "b" ∧
      b'.cursor = some "a" := by
  intro b rows gestures b'
  have hreachable : b.Reachable := .start _ _
  have hrows : b.rowIds = rows := by
    rw [rowIds, ← Listing.ids_unsorted named_in_order_twoFolders]
    rfl
  obtain ⟨-, -, hspan, -⟩ := range_follows_gestures hreachable hrows rfl rfl rfl gestures
  obtain ⟨hfocused, hcursor, hselected⟩ := hspan ⟨1, 0⟩ rfl
  exact ⟨hreachable, hrows, rfl, rfl, rfl, hselected, hfocused, hcursor⟩

end Browser

end TreeBrowser
