import Mathlib.Data.List.Induction
import Mathlib.Data.List.Nodup
import TreeBrowser.Selection.Range

/-!
# Merging a range into a selection

A merge goes through the old selection and then through the new range, and takes every id that it
has not met before. Ids may stand in these lists any number of times and in all of them at once;
still the two halves of the result do not depend on each other, since what is kept of the old
selection is nowhere in the new range.
-/

namespace TreeBrowser

/-! ## First occurrences -/

section Firsts

variable {ids front back : List EntryId} {id : EntryId}

/-- The ids of a list in their order, each in the place where it stands first and nowhere else. -/
def firsts (ids : List EntryId) : List EntryId :=
  (ids.zipIdx.filter fun place => ids.idxOf place.1 = place.2).map Prod.fst

/-- One more id changes nothing when it has been met, and comes last otherwise. -/
theorem firsts_append_singleton (ids : List EntryId) (id : EntryId) :
    firsts (ids ++ [id]) = if id ∈ ids then firsts ids else firsts ids ++ [id] := by
  -- In the longer list the places of the shorter one are judged as before.
  have hearlier : (ids.zipIdx.filter fun place => (ids ++ [id]).idxOf place.1 = place.2) =
      ids.zipIdx.filter fun place => ids.idxOf place.1 = place.2 := by
    apply List.filter_congr
    intro place hplace
    rw [List.idxOf_append, if_pos (List.fst_mem_of_mem_zipIdx hplace)]
  have hlast : (ids ++ [id]).idxOf id = ids.length ↔ id ∉ ids := by
    rw [List.idxOf_append]
    by_cases hid : id ∈ ids
    · have hlt := List.idxOf_lt_length_of_mem hid
      rw [if_pos hid]
      refine iff_of_false ?_ fun hnew => hnew hid
      omega
    · simp [hid]
  unfold firsts
  rw [List.zipIdx_append, List.filter_append, hearlier, List.map_append, Nat.zero_add,
    List.zipIdx_singleton, List.filter_singleton]
  by_cases hid : id ∈ ids
  · simp [hlast, hid]
  · simp [hlast, hid]

theorem eraseDups_eq_firsts (ids : List EntryId) : ids.eraseDups = firsts ids := by
  induction ids using List.reverseRecOn with
  | nil => rfl
  | append_singleton ids id ih =>
    rw [List.eraseDups_append, firsts_append_singleton, ih, List.removeAll]
    by_cases hid : id ∈ ids
    · simp [hid]
    · simp [hid, List.eraseDups_cons]

@[simp]
theorem mem_firsts : id ∈ firsts ids ↔ id ∈ ids := by
  rw [← eraseDups_eq_firsts, List.mem_eraseDups]

theorem nodup_firsts (ids : List EntryId) : (firsts ids).Nodup := by
  induction ids using List.reverseRecOn with
  | nil => exact List.nodup_nil
  | append_singleton ids id ih =>
    rw [firsts_append_singleton]
    by_cases hid : id ∈ ids
    · rw [if_pos hid]
      exact ih
    · rw [if_neg hid]
      apply ih.append (List.nodup_singleton id)
      rw [List.disjoint_singleton, mem_firsts]
      exact hid

theorem firsts_of_nodup (h : ids.Nodup) : firsts ids = ids := by
  induction ids using List.reverseRecOn with
  | nil => rfl
  | append_singleton ids id ih =>
    obtain ⟨hids, -, hdisjoint⟩ := List.nodup_append'.1 h
    have hid : id ∉ ids := List.disjoint_singleton.1 hdisjoint
    rw [firsts_append_singleton, if_neg hid, ih hids]

theorem firsts_append_of_disjoint (h : ∀ id ∈ back, id ∉ front) :
    firsts (front ++ back) = firsts front ++ firsts back := by
  have hback : back.removeAll front = back := by
    rw [List.removeAll, List.filter_eq_self]
    intro id hid
    simp [h id hid]
  rw [← eraseDups_eq_firsts, List.eraseDups_append, hback, eraseDups_eq_firsts,
    eraseDups_eq_firsts]

end Firsts

/-! ## What stays outside the ranges -/

section Merge

variable {previous new current : List EntryId} {id : EntryId}

/-- What stays of a selection when one range takes the place of another. -/
def outside (previous new current : List EntryId) : List EntryId :=
  current.filter fun id => !previous.contains id && !new.contains id

theorem mem_outside :
    id ∈ outside previous new current ↔ id ∈ current ∧ id ∉ previous ∧ id ∉ new := by
  simp [outside]

theorem outside_append (previous new front back : List EntryId) :
    outside previous new (front ++ back) =
      outside previous new front ++ outside previous new back :=
  List.filter_append front back

theorem outside_eq_nil (h : ∀ id ∈ current, id ∈ previous ∨ id ∈ new) :
    outside previous new current = [] := by
  rw [List.eq_nil_iff_forall_not_mem]
  intro id hid
  obtain ⟨hmem, hprevious, hnew⟩ := mem_outside.1 hid
  exact (h id hmem).elim hprevious hnew

theorem outside_eq_self (h : ∀ id ∈ current, id ∉ previous ∧ id ∉ new) :
    outside previous new current = current := by
  unfold outside
  rw [List.filter_eq_self]
  intro id hid
  simp [h id hid]

theorem nodup_outside_append {drawn range : List EntryId} (hcurrent : current.Nodup)
    (hrange : range.Nodup) (hsubset : range ⊆ drawn) :
    (outside previous drawn current ++ range).Nodup := by
  rw [List.nodup_append]
  refine ⟨hcurrent.filter _, hrange, fun a ha b hb heq => ?_⟩
  exact (mem_outside.1 ha).2.2 (hsubset (heq ▸ hb))

/-! ## The merge -/

/-- Nothing that is kept of the old selection is in the new range, so each half keeps its own first
occurrences. -/
theorem mergeRange_eq_firsts (previous new current : List EntryId) :
    mergeRange previous new current = firsts (outside previous new current) ++ firsts new :=
  calc mergeRange previous new current
      = (outside previous new current ++ new).eraseDups := rfl
    _ = firsts (outside previous new current ++ new) := eraseDups_eq_firsts _
    _ = firsts (outside previous new current) ++ firsts new :=
        firsts_append_of_disjoint fun _ hnew houtside => (mem_outside.1 houtside).2.2 hnew

/-- Without repetitions in the old selection and in the new range, the new range is appended as it
is. -/
theorem mergeRange_eq (hcurrent : current.Nodup) (hnew : new.Nodup) :
    mergeRange previous new current = outside previous new current ++ new := by
  have houtside : (outside previous new current).Nodup := hcurrent.filter _
  rw [mergeRange_eq_firsts, firsts_of_nodup houtside, firsts_of_nodup hnew]

theorem mergeRange_of_superseded (hnew : new.Nodup)
    (hcurrent : ∀ id ∈ current, id ∈ previous ∨ id ∈ new) :
    mergeRange previous new current = new := by
  rw [mergeRange_eq_firsts, outside_eq_nil hcurrent, firsts_of_nodup hnew]
  rfl

theorem mem_mergeRange_iff :
    id ∈ mergeRange previous new current ↔ id ∈ new ∨ id ∈ current ∧ id ∉ previous := by
  rw [mergeRange_eq_firsts, List.mem_append, mem_firsts, mem_firsts, mem_outside]
  tauto

theorem nodup_mergeRange (previous new current : List EntryId) :
    (mergeRange previous new current).Nodup := by
  rw [mergeRange_eq_firsts]
  apply (nodup_firsts _).append (nodup_firsts new)
  intro id houtside hnew
  exact (mem_outside.1 (mem_firsts.1 houtside)).2.2 (mem_firsts.1 hnew)

theorem mergeRange_mergeRange (previous new current : List EntryId) :
    mergeRange new new (mergeRange previous new current) = mergeRange previous new current := by
  have hkept : outside new new (firsts (outside previous new current)) =
      firsts (outside previous new current) := by
    apply outside_eq_self
    intro id hid
    have hnew : id ∉ new := (mem_outside.1 (mem_firsts.1 hid)).2.2
    exact ⟨hnew, hnew⟩
  have hdrawn : outside new new (firsts new) = [] :=
    outside_eq_nil fun id hid => Or.inl (mem_firsts.1 hid)
  calc mergeRange new new (mergeRange previous new current)
      = firsts (outside new new (mergeRange previous new current)) ++ firsts new :=
        mergeRange_eq_firsts _ _ _
    _ = firsts (firsts (outside previous new current)) ++ firsts new := by
        rw [mergeRange_eq_firsts, outside_append, hkept, hdrawn, List.append_nil]
    _ = mergeRange previous new current := by
        rw [firsts_of_nodup (nodup_firsts _), mergeRange_eq_firsts]

/-- A merge lists the ids of the old selection that are in neither range and then those of the new
range, each where it stands first among them, whatever the three lists hold. So it repeats no id,
has all of the new range and nothing of the previous one that is not in the new one, and does not
change when it is made again. -/
theorem merge_keeps_firsts (previous new current : List EntryId) :
    let merged := mergeRange previous new current
    merged = firsts (current.filter fun id => id ∉ previous ∧ id ∉ new) ++ firsts new ∧
    merged.Nodup ∧
    (∀ id ∈ new, id ∈ merged) ∧
    (∀ id ∈ previous, id ∉ new → id ∉ merged) ∧
    mergeRange new new merged = merged := by
  intro merged
  have houtside : outside previous new current =
      current.filter fun id => id ∉ previous ∧ id ∉ new := by
    apply List.filter_congr
    intro id _
    simp
  refine ⟨?_, nodup_mergeRange previous new current, ?_, ?_,
    mergeRange_mergeRange previous new current⟩
  · rw [← houtside]
    exact mergeRange_eq_firsts previous new current
  · intro id hid
    exact mem_mergeRange_iff.2 (Or.inl hid)
  · intro id hprevious hnew hmerged
    rcases mem_mergeRange_iff.1 hmerged with hmem | ⟨-, hkept⟩
    · exact hnew hmem
    · exact hkept hprevious

/-- The lists repeat ids and overlap. Of the previous range `b` is drawn again and `c` is not. -/
theorem merge_keeps_firsts_overlapping :
    let previous := ["b", "c"]
    let new := ["d", "b", "d"]
    let current := ["x", "c", "a", "d", "x", "b"]
    mergeRange previous new current = ["x", "a", "d", "b"] ∧
      "b" ∈ mergeRange previous new current ∧
      "c" ∈ previous ∧ "c" ∉ new ∧ "c" ∉ mergeRange previous new current := by
  intro previous new current
  obtain ⟨hmerged, -, hnew, hprevious, -⟩ := merge_keeps_firsts previous new current
  have hc : "c" ∈ previous := by decide
  have hgone : "c" ∉ new := by decide
  refine ⟨?_, hnew "b" (by decide), hc, hgone, hprevious "c" hc hgone⟩
  rw [hmerged]
  decide

end Merge

end TreeBrowser
