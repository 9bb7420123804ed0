import Mathlib.Data.List.Induction
import TreeBrowser.Proofs.Selection

/-!
# Shift clicks one after another

Each shift click takes the range of the one before it out of the selection and puts its own range at
the end. However many there are, on whatever rows, what is left in the end is what was selected
before the first one and is in no range that has been drawn since, and the last range after it.
-/

namespace TreeBrowser

structure ShiftClick where
  rows : List EntryId
  id : EntryId

namespace ShiftClick

def range (policy : MissingEndpoint) (anchor : EntryId) (click : ShiftClick) : List EntryId :=
  rangeBetween click.rows anchor click.id policy

theorem nodup_range {click : ShiftClick} (hrows : click.rows.Nodup) (policy : MissingEndpoint)
    (anchor : EntryId) : (click.range policy anchor).Nodup :=
  (rangeBetween_sublist click.rows anchor click.id policy).nodup hrows

def drawn (policy : MissingEndpoint) (anchor : EntryId) (clicks : List ShiftClick) :
    List EntryId :=
  clicks.flatMap (range policy anchor)

theorem drawn_append (policy : MissingEndpoint) (anchor : EntryId) (clicks : List ShiftClick)
    (click : ShiftClick) :
    drawn policy anchor (clicks ++ [click]) =
      drawn policy anchor clicks ++ click.range policy anchor := by
  rw [drawn, List.flatMap_append, List.flatMap_singleton]
  rfl

theorem range_subset_drawn (policy : MissingEndpoint) (anchor : EntryId)
    (earlier : List ShiftClick) (last : ShiftClick) :
    last.range policy anchor ⊆ drawn policy anchor (earlier ++ [last]) := by
  rw [drawn_append]
  exact List.subset_append_right _ _

end ShiftClick

/-! ## What stays outside the ranges -/

theorem outside_self (range new : List EntryId) : outside range new range = [] :=
  outside_eq_nil fun _ hid => Or.inl hid

theorem outside_outside {previous drawn range : List EntryId} (hrange : range ⊆ drawn)
    (new current : List EntryId) :
    outside range new (outside previous drawn current) =
      outside previous (drawn ++ new) current := by
  rw [outside, outside, outside, List.filter_filter]
  apply List.filter_congr
  intro id _
  rw [Bool.eq_iff_iff]
  have hdrawn : id ∈ range → id ∈ drawn := fun hid => hrange hid
  simp only [Bool.and_eq_true, Bool.not_eq_true', List.contains_eq_mem, decide_eq_false_iff_not,
    List.mem_append]
  tauto

theorem outside_append_of_subset {previous drawn range current : List EntryId}
    (hrange : range ⊆ drawn) :
    outside previous (drawn ++ range) current = outside previous drawn current := by
  apply List.filter_congr
  intro id _
  have hmem : id ∈ drawn ++ range ↔ id ∈ drawn :=
    ⟨fun hid => (List.mem_append.1 hid).elim (fun h => h) fun h => hrange h,
      List.mem_append_left _⟩
  simp only [List.contains_eq_mem, hmem]

theorem outside_drawn (previous current : List EntryId) (policy : MissingEndpoint)
    (anchor : EntryId) (clicks : List ShiftClick) :
    outside previous (ShiftClick.drawn policy anchor clicks) current =
      current.filter fun id => id ∉ previous ∧
        ∀ click ∈ clicks, id ∉ click.range policy anchor := by
  apply List.filter_congr
  intro id _
  rw [Bool.eq_iff_iff]
  simp [ShiftClick.drawn]

namespace Selection

variable {s : Selection} {anchor : EntryId} {policy : MissingEndpoint}

def shiftClicks (s : Selection) (policy : MissingEndpoint) (clicks : List ShiftClick) :
    Selection :=
  clicks.foldl (fun s click => s.shiftClick click.rows click.id policy) s

theorem shiftClicks_append (s : Selection) (policy : MissingEndpoint) (clicks : List ShiftClick)
    (click : ShiftClick) :
    s.shiftClicks policy (clicks ++ [click]) =
      (s.shiftClicks policy clicks).shiftClick click.rows click.id policy := by
  rw [shiftClicks, List.foldl_append]
  rfl

/-- The selection when ranges have been drawn from `anchor`, of which `range` is the last one. -/
def withDrawn (s : Selection) (anchor : EntryId) (drawn range : List EntryId) : Selection :=
  ⟨outside s.lastRange drawn s.selected ++ range, some anchor, range⟩

theorem shiftClick_of_focused (hfocused : s.focused = some anchor) (hselected : s.selected.Nodup)
    {click : ShiftClick} (hrows : click.rows.Nodup) :
    s.shiftClick click.rows click.id policy =
      s.withDrawn anchor (click.range policy anchor) (click.range policy anchor) := by
  have hanchor : (s.focused <|> click.rows.head?) = some anchor := by
    rw [hfocused]
    rfl
  have hmerge : mergeRange s.lastRange (click.range policy anchor) s.selected =
      outside s.lastRange (click.range policy anchor) s.selected ++ click.range policy anchor :=
    mergeRange_eq hselected (ShiftClick.nodup_range hrows policy anchor)
  rw [shiftClick, hanchor, withDrawn, ← hmerge]
  rfl

theorem shiftClick_withDrawn (hselected : s.selected.Nodup) {drawn range : List EntryId}
    (hrange : range.Nodup) (hdrawn : range ⊆ drawn) {click : ShiftClick}
    (hrows : click.rows.Nodup) :
    (s.withDrawn anchor drawn range).shiftClick click.rows click.id policy =
      s.withDrawn anchor (drawn ++ click.range policy anchor) (click.range policy anchor) := by
  have hnodup : (s.withDrawn anchor drawn range).selected.Nodup :=
    nodup_outside_append hselected hrange hdrawn
  rw [shiftClick_of_focused rfl hnodup hrows]
  simp only [withDrawn, outside_append, outside_self, outside_outside hdrawn, List.append_nil]

theorem shiftClicks_eq (hfocused : s.focused = some anchor) (hselected : s.selected.Nodup)
    {earlier : List ShiftClick} {last : ShiftClick}
    (hrows : ∀ click ∈ earlier ++ [last], click.rows.Nodup) :
    s.shiftClicks policy (earlier ++ [last]) =
      s.withDrawn anchor (ShiftClick.drawn policy anchor (earlier ++ [last]))
        (last.range policy anchor) := by
  have hlast : last.rows.Nodup := hrows last (by simp)
  rw [shiftClicks_append, ShiftClick.drawn_append]
  -- The clicks before the last one have left a selection of this form, with a range of their own.
  induction earlier using List.reverseRecOn generalizing last with
  | nil => exact shiftClick_of_focused hfocused hselected hlast
  | append_singleton earlier prev ih =>
    have hrows' : ∀ click ∈ earlier ++ [prev], click.rows.Nodup :=
      fun click hclick => hrows click (List.mem_append_left _ hclick)
    have hprev : prev.rows.Nodup := hrows' prev (by simp)
    rw [shiftClicks_append, ih hrows' hprev, ← ShiftClick.drawn_append]
    exact shiftClick_withDrawn hselected (ShiftClick.nodup_range hprev policy anchor)
      (ShiftClick.range_subset_drawn policy anchor earlier prev) hlast

/-- After shift clicks, of which `last` is the last one, the anchor is focused as before. Selected
are the entries that were selected at first and have been in no range since, in their order, and
then the last range. The last click once more changes nothing. -/
theorem shiftClicks_closed_form (hfocused : s.focused = some anchor) (hselected : s.selected.Nodup)
    (policy : MissingEndpoint) (earlier : List ShiftClick) (last : ShiftClick)
    (hrows : ∀ click ∈ earlier ++ [last], click.rows.Nodup) :
    let s' := s.shiftClicks policy (earlier ++ [last])
    s'.focused = some anchor ∧
    s'.lastRange = last.range policy anchor ∧
    s'.selected = (s.selected.filter fun id => id ∉ s.lastRange ∧
      ∀ click ∈ earlier ++ [last], id ∉ click.range policy anchor) ++ last.range policy anchor ∧
    s'.shiftClick last.rows last.id policy = s' := by
  intro s'
  have hlast : last.rows.Nodup := hrows last (by simp)
  have hdrawn := ShiftClick.range_subset_drawn policy anchor earlier last
  have hs' : s' = s.withDrawn anchor (ShiftClick.drawn policy anchor (earlier ++ [last]))
      (last.range policy anchor) := shiftClicks_eq hfocused hselected hrows
  rw [hs']
  refine ⟨rfl, rfl, ?_, ?_⟩
  · rw [withDrawn, outside_drawn]
  · rw [shiftClick_withDrawn hselected (ShiftClick.nodup_range hlast policy anchor) hdrawn hlast,
      withDrawn, outside_append_of_subset hdrawn]
    rfl

/-- The second click finds other rows, in which the anchor comes last, and is on none of them. -/
theorem shiftClicks_closed_form_reordered :
    let s : Selection := ⟨["x", "a", "b"], some "a", ["a", "b"]⟩
    let earlier : List ShiftClick := [⟨["a", "b", "c"], "c"⟩]
    let last : ShiftClick := ⟨["c", "x", "a"], "lost"⟩
    s.focused = some "a" ∧ s.selected.Nodup ∧ (∀ click ∈ earlier ++ [last], click.rows.Nodup) ∧
      (s.shiftClicks .clampToStart (earlier ++ [last])).selected = ["c", "x", "a"] ∧
      (s.shiftClicks .empty (earlier ++ [last])).selected = ["x"] := by
  intro s earlier last
  have hselected : s.selected.Nodup := by decide
  have hrows : ∀ click ∈ earlier ++ [last], click.rows.Nodup := by decide
  obtain ⟨-, -, hclamped, -⟩ :=
    shiftClicks_closed_form (s := s) rfl hselected .clampToStart earlier last hrows
  obtain ⟨-, -, hempty, -⟩ :=
    shiftClicks_closed_form (s := s) rfl hselected .empty earlier last hrows
  rw [hclamped, hempty]
  exact ⟨rfl, hselected, hrows, by decide, by decide⟩

end Selection

end TreeBrowser
