import Mathlib.Algebra.Ring.Parity
import Mathlib.Data.List.Induction
import TreeBrowser.Proofs.Selection.Focus

/-!
# Plain and meta clicks

A plain click begins a new selection and a meta click adds an entry or takes it away again. So an
entry is selected when it has been clicked an odd number of times since the last plain click, and the
selection lists its entries in the order in which they came into it.
-/

namespace TreeBrowser

structure Pick where
  id : EntryId
  metaKey : Bool

namespace Pick

variable {picks : List Pick} {pick : Pick} {id : EntryId} {i : Nat}

/-- The last plain click and all that follow it, or all clicks when none is plain. -/
def sincePlain : List Pick → List Pick
  | [] => []
  | pick :: rest => if rest.all metaKey then pick :: rest else sincePlain rest

/-- How often an entry was clicked since the last plain click, that one included. -/
def presses (picks : List Pick) (id : EntryId) : Nat :=
  (sincePlain picks).countP fun pick => pick.id == id

/-- The click in place `i` added the entry: it was on it and left it pressed an odd number of
times. -/
def Adds (picks : List Pick) (id : EntryId) (i : Nat) : Prop :=
  (∃ pick, picks[i]? = some pick ∧ pick.id = id) ∧ Odd (presses (picks.take (i + 1)) id)

structure LastAdds (picks : List Pick) (id : EntryId) (i : Nat) : Prop where
  adds : Adds picks id i
  last : ∀ j, Adds picks id j → j ≤ i

def AddedBefore (picks : List Pick) (a b : EntryId) : Prop :=
  ∃ i j, LastAdds picks a i ∧ LastAdds picks b j ∧ i < j

theorem sincePlain_append (picks : List Pick) (pick : Pick) :
    sincePlain (picks ++ [pick]) = if pick.metaKey then sincePlain picks ++ [pick] else [pick] := by
  induction picks with
  | nil => simp [sincePlain]
  | cons first rest ih =>
    have hall : (rest ++ [pick]).all metaKey = (rest.all metaKey && pick.metaKey) := by
      rw [List.all_append, List.all_cons, List.all_nil, Bool.and_true]
    rw [List.cons_append, sincePlain, ih, sincePlain, hall]
    cases pick.metaKey with
    | false => simp
    | true => cases rest.all metaKey <;> simp

theorem presses_append (picks : List Pick) (pick : Pick) (id : EntryId) :
    presses (picks ++ [pick]) id =
      (if pick.metaKey then presses picks id else 0) + if pick.id = id then 1 else 0 := by
  rw [presses, sincePlain_append]
  cases pick.metaKey with
  | false => simp [List.countP_cons]
  | true => simp [presses, List.countP_append, List.countP_cons]

/-- A plain click on an entry is its first one, and a meta click on it turns odd into even. -/
theorem odd_presses_append (picks : List Pick) (pick : Pick) :
    Odd (presses (picks ++ [pick]) pick.id) ↔
      (pick.metaKey = true → ¬ Odd (presses picks pick.id)) := by
  rw [presses_append, if_pos rfl, Nat.odd_add_one]
  cases pick.metaKey <;> simp

theorem odd_presses_append_of_ne (picks : List Pick) (hne : pick.id ≠ id) :
    Odd (presses (picks ++ [pick]) id) ↔ pick.metaKey = true ∧ Odd (presses picks id) := by
  rw [presses_append, if_neg hne, Nat.add_zero]
  cases pick.metaKey <;> simp

/-! ## When entries were added -/

theorem Adds.lt_length (h : Adds picks id i) : i < picks.length := by
  obtain ⟨⟨pick, hpick, -⟩, -⟩ := h
  exact (List.getElem?_eq_some_iff.1 hpick).1

theorem adds_append_iff :
    Adds (picks ++ [pick]) id i ↔
      Adds picks id i ∨
        i = picks.length ∧ pick.id = id ∧ Odd (presses (picks ++ [pick]) id) := by
  rcases Nat.lt_trichotomy i picks.length with hlt | rfl | hgt
  · rw [Adds, Adds, List.getElem?_append_left hlt, List.take_append_of_le_length hlt]
    simp [Nat.ne_of_lt hlt]
  · have hnot : ¬ Adds picks id picks.length := fun h => Nat.lt_irrefl _ h.lt_length
    have htake : (picks ++ [pick]).take (picks.length + 1) = picks ++ [pick] :=
      List.take_of_length_le (by simp)
    rw [Adds, htake]
    simp [hnot]
  · have hnot : ¬ Adds picks id i := fun h => Nat.lt_asymm hgt h.lt_length
    have hnot' : ¬ Adds (picks ++ [pick]) id i := by
      intro h
      have hlt := h.lt_length
      rw [List.length_append, List.length_singleton] at hlt
      omega
    simp [hnot, hnot', Nat.ne_of_gt hgt]

theorem LastAdds.append_of_ne (h : LastAdds picks id i) (hne : pick.id ≠ id) :
    LastAdds (picks ++ [pick]) id i where
  adds := adds_append_iff.2 (Or.inl h.adds)
  last j hj := by
    rcases adds_append_iff.1 hj with hj | ⟨-, hid, -⟩
    · exact h.last j hj
    · exact absurd hid hne

theorem lastAdds_append (hodd : Odd (presses (picks ++ [pick]) pick.id)) :
    LastAdds (picks ++ [pick]) pick.id picks.length where
  adds := adds_append_iff.2 (Or.inr ⟨rfl, rfl, hodd⟩)
  last j hj := by
    rcases adds_append_iff.1 hj with hj | ⟨rfl, -, -⟩
    · exact Nat.le_of_lt hj.lt_length
    · exact Nat.le_refl _

/-- What has been pressed an odd number of times was added by some click. -/
theorem exists_lastAdds (hodd : Odd (presses picks id)) : ∃ i, LastAdds picks id i := by
  induction picks using List.reverseRecOn with
  | nil => simp [presses, sincePlain] at hodd
  | append_singleton picks pick ih =>
    by_cases hid : pick.id = id
    · subst hid
      exact ⟨picks.length, lastAdds_append hodd⟩
    · obtain ⟨i, hi⟩ := ih ((odd_presses_append_of_ne picks hid).1 hodd).2
      exact ⟨i, hi.append_of_ne hid⟩

theorem AddedBefore.append_of_ne {a b : EntryId} (h : AddedBefore picks a b) (ha : pick.id ≠ a)
    (hb : pick.id ≠ b) : AddedBefore (picks ++ [pick]) a b := by
  obtain ⟨i, j, hi, hj, hlt⟩ := h
  exact ⟨i, j, hi.append_of_ne ha, hj.append_of_ne hb, hlt⟩

theorem AddedBefore.ne {a b : EntryId} (h : AddedBefore picks a b) : a ≠ b := by
  obtain ⟨i, j, hi, hj, hlt⟩ := h
  rintro rfl
  have hle := hi.last j hj.adds
  omega

end Pick

namespace Selection

variable {s : Selection} {id other : EntryId}

def pick (s : Selection) (click : Pick) : Selection :=
  if click.metaKey then s.metaClick click.id else s.click click.id

def afterPicks (picks : List Pick) : Selection :=
  picks.foldl pick empty

theorem afterPicks_append (picks : List Pick) (click : Pick) :
    afterPicks (picks ++ [click]) = (afterPicks picks).pick click := by
  rw [afterPicks, List.foldl_append]
  rfl

theorem mem_selected_metaClick_self : id ∈ (s.metaClick id).selected ↔ id ∉ s.selected := by
  by_cases hid : id ∈ s.selected
  · simp [metaClick_of_mem hid, hid]
  · simp [metaClick_of_not_mem hid, hid]

theorem mem_selected_metaClick_of_ne (hne : id ≠ other) :
    other ∈ (s.metaClick id).selected ↔ other ∈ s.selected := by
  by_cases hid : id ∈ s.selected
  · simp [metaClick_of_mem hid, Ne.symm hne]
  · simp [metaClick_of_not_mem hid, Ne.symm hne]

/-- An entry is selected when it has been pressed an odd number of times. -/
theorem mem_afterPicks_iff (picks : List Pick) :
    id ∈ (afterPicks picks).selected ↔ Odd (Pick.presses picks id) := by
  induction picks using List.reverseRecOn with
  | nil => simp [afterPicks, empty, Pick.presses, Pick.sincePlain]
  | append_singleton picks click ih =>
    rw [afterPicks_append, pick]
    by_cases hid : click.id = id
    · subst hid
      rw [Pick.odd_presses_append, ← ih]
      cases click.metaKey with
      | false => simp [Selection.click]
      | true => simp [mem_selected_metaClick_self]
    · rw [Pick.odd_presses_append_of_ne picks hid, ← ih]
      cases click.metaKey with
      | false => simp [Selection.click, Ne.symm hid]
      | true => simp [mem_selected_metaClick_of_ne hid]

/-- What is selected beside the entry that is clicked stands as it did, and an entry that the click
selects comes last. -/
theorem pairwise_afterPicks (picks : List Pick) :
    (afterPicks picks).selected.Pairwise (Pick.AddedBefore picks) := by
  induction picks using List.reverseRecOn with
  | nil => exact List.Pairwise.nil
  | append_singleton picks click ih =>
    rw [afterPicks_append, pick]
    cases hmeta : click.metaKey with
    | false => exact List.pairwise_singleton _ _
    | true =>
      rw [if_pos rfl]
      by_cases hid : click.id ∈ (afterPicks picks).selected
      · rw [metaClick_of_mem hid]
        refine (ih.filter _).imp_of_mem fun {a b} ha hb hab => hab.append_of_ne ?_ ?_
        · exact Ne.symm (by simpa using (List.mem_filter.1 ha).2)
        · exact Ne.symm (by simpa using (List.mem_filter.1 hb).2)
      · rw [metaClick_of_not_mem hid, List.pairwise_append]
        have hne {a : EntryId} (ha : a ∈ (afterPicks picks).selected) : click.id ≠ a := by
          rintro rfl
          exact hid ha
        refine ⟨ih.imp_of_mem fun ha hb hab => hab.append_of_ne (hne ha) (hne hb),
          List.pairwise_singleton _ _, fun a ha b hb => ?_⟩
        rw [List.mem_singleton.1 hb]
        obtain ⟨i, hi⟩ := Pick.exists_lastAdds ((mem_afterPicks_iff picks).1 ha)
        have hodd : Odd (Pick.presses (picks ++ [click]) click.id) := by
          rw [Pick.odd_presses_append, ← mem_afterPicks_iff]
          exact fun _ => hid
        exact ⟨i, picks.length, hi.append_of_ne (hne ha), Pick.lastAdds_append hodd,
          hi.adds.lt_length⟩

theorem lastRange_metaClick (s : Selection) (id : EntryId) : (s.metaClick id).lastRange = [] := by
  by_cases hid : id ∈ s.selected
  · rw [metaClick_of_mem hid]
  · rw [metaClick_of_not_mem hid]

theorem lastRange_afterPicks (picks : List Pick) : (afterPicks picks).lastRange = [] := by
  rcases List.eq_nil_or_concat picks with rfl | ⟨picks, click, rfl⟩
  · rfl
  · rw [List.concat_eq_append, afterPicks_append, pick]
    cases click.metaKey with
    | false => rfl
    | true => exact lastRange_metaClick _ _

/-- When a meta click leaves nothing focused, it leaves nothing selected. -/
theorem selected_metaClick_eq_nil (hs : s.focused = none → s.selected = [])
    (hfocused : (s.metaClick id).focused = none) : (s.metaClick id).selected = [] := by
  by_cases hid : id ∈ s.selected
  · rw [metaClick_of_mem hid] at hfocused ⊢
    dsimp only at hfocused ⊢
    split at hfocused
    · exact List.getLast?_eq_none_iff.1 hfocused
    · rw [hs hfocused] at hid
      cases hid
  · rw [metaClick_of_not_mem hid] at hfocused
    cases hfocused

theorem selected_afterPicks_eq_nil (picks : List Pick)
    (hfocused : (afterPicks picks).focused = none) : (afterPicks picks).selected = [] := by
  induction picks using List.reverseRecOn with
  | nil => rfl
  | append_singleton picks click ih =>
    rw [afterPicks_append, pick] at hfocused ⊢
    cases hmeta : click.metaKey with
    | false =>
      rw [hmeta] at hfocused
      cases hfocused
    | true =>
      rw [hmeta] at hfocused
      exact selected_metaClick_eq_nil ih hfocused

theorem not_focusesUnselected_afterPicks (picks : List Pick) :
    ¬ (afterPicks picks).FocusesUnselected id := by
  induction picks using List.reverseRecOn with
  | nil => exact not_focusesUnselected_empty
  | append_singleton picks click ih =>
    rw [afterPicks_append, pick]
    cases click.metaKey with
    | false => exact not_focusesUnselected_click (s := afterPicks picks)
    | true => exact fun h => ih (focusesUnselected_metaClick_iff.1 h).1

/-- After any plain and meta clicks, the entries selected are those that were clicked an odd number
of times since the last plain click. Each is selected once, in the order in which they were last
added. No range is recorded, and one of the selected entries is focused as long as there are any. -/
theorem picks_toggle_by_parity (picks : List Pick) :
    let s := afterPicks picks
    (∀ id, id ∈ s.selected ↔ Odd (Pick.presses picks id)) ∧
    s.selected.Nodup ∧
    s.selected.Pairwise (Pick.AddedBefore picks) ∧
    s.lastRange = [] ∧
    (s.focused = none ↔ s.selected = []) ∧
    ∀ id, s.focused = some id → id ∈ s.selected := by
  intro s
  have hordered : s.selected.Pairwise (Pick.AddedBefore picks) := pairwise_afterPicks picks
  have hfocused (id : EntryId) (h : s.focused = some id) : id ∈ s.selected := by
    by_contra hid
    exact not_focusesUnselected_afterPicks picks ⟨h, hid⟩
  refine ⟨fun id => mem_afterPicks_iff picks, hordered.imp Pick.AddedBefore.ne, hordered,
    lastRange_afterPicks picks, ⟨selected_afterPicks_eq_nil picks, fun hnone => ?_⟩, hfocused⟩
  cases hfocus : s.focused with
  | none => rfl
  | some id =>
    have hid := hfocused id hfocus
    rw [hnone] at hid
    cases hid

/-- An entry is taken away and added again, and then the focused one is taken away, so that the
focus goes back to the last one that is left. -/
theorem picks_toggle_by_parity_refocused :
    let picks : List Pick := [⟨"x", true⟩, ⟨"a", false⟩, ⟨"b", true⟩, ⟨"c", true⟩, ⟨"b", true⟩,
      ⟨"b", true⟩, ⟨"d", true⟩, ⟨"d", true⟩]
    let s := afterPicks picks
    s.focused = some "b" ∧ "b" ∈ s.selected ∧ Odd (Pick.presses picks "b") ∧
      s.selected = ["a", "c", "b"] := by
  intro picks s
  have hfocused : s.focused = some "b" := by decide
  obtain ⟨hmem, -, -, -, -, hfocus⟩ := picks_toggle_by_parity picks
  have hb : "b" ∈ s.selected := hfocus "b" hfocused
  exact ⟨hfocused, hb, (hmem "b").1 hb, by decide⟩

end Selection

end TreeBrowser
