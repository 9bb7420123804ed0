import TreeBrowser.Proofs.Selection.Merge
import TreeBrowser.Proofs.Tree.Family
import TreeBrowser.Selection.Basic

/-!
# Selections of a tree

A selection is sound for a tree when it names only entries of the tree, holds no id twice, and ends
with the last range. Every gesture keeps this, whatever rows it is made on, as long as the rows are
distinct entries of the tree.
-/

namespace TreeBrowser

theorem rangeBetween_sublist (ordered : List EntryId) (a b : EntryId) (policy : MissingEndpoint) :
    (rangeBetween ordered a b policy).Sublist ordered := by
  unfold rangeBetween
  split
  · exact (List.drop_sublist _ _).trans (List.take_sublist _ _)
  · exact List.nil_sublist _

theorem filter_eq_self_of_mem {o : Option EntryId} {test : EntryId → Bool}
    (h : ∀ id ∈ o, test id = true) : o.filter test = o := by
  cases o with
  | none => rfl
  | some id => exact Option.filter_some_pos (h id rfl)

namespace Selection

variable {α : Type} {s : Selection} {t : Tree α}

theorem isSelected_iff {id : EntryId} : s.isSelected id = true ↔ id ∈ s.selected :=
  List.contains_iff_mem

theorem metaClick_of_mem {id : EntryId} (hid : id ∈ s.selected) :
    s.metaClick id =
      let kept := s.selected.filter fun other => other != id
      ⟨kept, if s.isFocused id then kept.getLast? else s.focused, []⟩ :=
  if_pos (isSelected_iff.2 hid)

theorem metaClick_of_not_mem {id : EntryId} (hid : id ∉ s.selected) :
    s.metaClick id = ⟨s.selected ++ [id], some id, []⟩ :=
  if_neg fun h => hid (isSelected_iff.1 h)

/-- All that a selection says is about entries of the tree, each said once, and the last range is
at its end. -/
structure Sound (s : Selection) (t : Tree α) : Prop where
  selected : ∀ id ∈ s.selected, t.contains id = true
  focused : ∀ id ∈ s.focused, t.contains id = true
  nodup : s.selected.Nodup
  lastRange : s.lastRange <:+ s.selected

namespace Sound

theorem of_lastRange (h : s.Sound t) {id : EntryId} (hid : id ∈ s.lastRange) :
    t.contains id = true :=
  h.selected id (h.lastRange.subset hid)

theorem nodup_lastRange (h : s.Sound t) : s.lastRange.Nodup :=
  h.lastRange.sublist.nodup h.nodup

theorem empty : Selection.empty.Sound t where
  selected := nofun
  focused := nofun
  nodup := List.nodup_nil
  lastRange := List.suffix_refl _

theorem click {id : EntryId} (hid : t.contains id = true) : (s.click id).Sound t where
  selected := by
    intro other hother
    rw [List.mem_singleton.1 hother]
    exact hid
  focused := by
    intro other hother
    cases hother
    exact hid
  nodup := List.nodup_singleton id
  lastRange := List.nil_suffix

theorem without (h : s.Sound t) (id : EntryId) :
    let kept := s.selected.filter fun other => other != id
    Selection.Sound ⟨kept, if s.isFocused id then kept.getLast? else s.focused, []⟩ t := by
  intro kept
  have hkept : ∀ other ∈ kept, t.contains other = true :=
    fun other hother => h.selected other (List.mem_of_mem_filter hother)
  refine ⟨hkept, ?_, h.nodup.filter _, List.nil_suffix⟩
  intro other hother
  dsimp only at hother
  split at hother
  · exact hkept other (List.mem_of_getLast? hother)
  · exact h.focused other hother

theorem added (h : s.Sound t) {id : EntryId} (hid : t.contains id = true)
    (hnew : id ∉ s.selected) : Selection.Sound ⟨s.selected ++ [id], some id, []⟩ t := by
  refine ⟨?_, ?_, ?_, List.nil_suffix⟩
  · intro other hother
    rcases List.mem_append.1 hother with hother | hother
    · exact h.selected other hother
    · rw [List.mem_singleton.1 hother]
      exact hid
  · intro other hother
    cases hother
    exact hid
  · rw [List.nodup_append]
    refine ⟨h.nodup, List.nodup_singleton id, fun a ha b hb heq => ?_⟩
    rw [heq, List.mem_singleton.1 hb] at ha
    exact hnew ha

theorem metaClick (h : s.Sound t) {id : EntryId} (hid : t.contains id = true) :
    (s.metaClick id).Sound t := by
  by_cases hselected : id ∈ s.selected
  · rw [metaClick_of_mem hselected]
    exact h.without id
  · rw [metaClick_of_not_mem hselected]
    exact h.added hid hselected

theorem replaceRange (h : s.Sound t) {range : List EntryId} (hnodup : range.Nodup)
    (hrange : ∀ id ∈ range, t.contains id = true) {anchor : EntryId}
    (hanchor : t.contains anchor = true) :
    Selection.Sound ⟨mergeRange s.lastRange range s.selected, some anchor, range⟩ t := by
  rw [mergeRange_eq h.nodup hnodup]
  refine ⟨?_, ?_, nodup_outside_append h.nodup hnodup (List.Subset.refl _),
    List.suffix_append _ _⟩
  · intro id hid
    rcases List.mem_append.1 hid with hid | hid
    · exact h.selected id (mem_outside.1 hid).1
    · exact hrange id hid
  · intro id hid
    cases hid
    exact hanchor

/-- The rows of a shift click may be any distinct entries; the row that is clicked need not be one
of them. -/
theorem shiftClick (h : s.Sound t) {ordered : List EntryId} (hnodup : ordered.Nodup)
    (hordered : ∀ id ∈ ordered, t.contains id = true) (id : EntryId) (policy : MissingEndpoint) :
    (s.shiftClick ordered id policy).Sound t := by
  unfold Selection.shiftClick
  split
  · exact h
  · rename_i anchor hanchor
    have hrange := rangeBetween_sublist ordered anchor id policy
    apply h.replaceRange (hrange.nodup hnodup) fun other hother =>
      hordered other (hrange.subset hother)
    cases hfocused : s.focused with
    | some focused =>
      rw [hfocused] at hanchor
      cases hanchor
      exact h.focused anchor hfocused
    | none =>
      rw [hfocused] at hanchor
      exact hordered anchor (List.mem_of_mem_head? hanchor)

theorem retainExisting {β : Type} (h : s.Sound t) (t' : Tree β) :
    (s.retainExisting t').Sound t' where
  selected _ hid := (List.mem_filter.1 hid).2
  focused _ hid := (Option.mem_filter_iff.1 hid).2
  nodup := h.nodup.filter _
  lastRange := h.lastRange.filter _

theorem retainExisting_eq {β : Type} (h : s.Sound t) {t' : Tree β}
    (hsame : ∀ id, t.contains id = true → t'.contains id = true) :
    s.retainExisting t' = s := by
  have hselected : s.selected.filter t'.contains = s.selected :=
    List.filter_eq_self.2 fun id hid => hsame id (h.selected id hid)
  have hfocused : s.focused.filter t'.contains = s.focused :=
    filter_eq_self_of_mem fun id hid => hsame id (h.focused id hid)
  have hrange : s.lastRange.filter t'.contains = s.lastRange :=
    List.filter_eq_self.2 fun id hid => hsame id (h.of_lastRange hid)
  rw [Selection.retainExisting, hselected, hfocused, hrange]

end Sound

end Selection

end TreeBrowser
