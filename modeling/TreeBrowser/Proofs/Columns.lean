import Mathlib.Data.List.Nodup
import Mathlib.Data.List.Sublists
import TreeBrowser.Columns

/-!
# Siblings in the order of the columns

Sorting gives the same siblings in another order. When the order of the active column is a total
preorder, siblings stand as it says, and those that it does not tell apart stand as they were given;
in a descending listing all this is turned round.
-/

namespace TreeBrowser

/-! ## Before and after in a list -/

def Precedes {β : Type} (l : List β) (x y : β) : Prop :=
  [x, y].Sublist l

namespace Precedes

variable {β : Type} {l : List β} {x y : β}

theorem mem_left (h : Precedes l x y) : x ∈ l :=
  h.subset List.mem_cons_self

theorem mem_right (h : Precedes l x y) : y ∈ l :=
  h.subset (List.mem_cons_of_mem _ List.mem_cons_self)

theorem cons_iff {a : β} : Precedes (a :: l) x y ↔ x = a ∧ y ∈ l ∨ Precedes l x y := by
  constructor
  · intro h
    cases h with
    | cons _ h => exact Or.inr h
    | cons_cons _ h => exact Or.inl ⟨rfl, List.singleton_sublist.1 h⟩
  · rintro (⟨rfl, hy⟩ | h)
    · exact (List.singleton_sublist.2 hy).cons_cons x
    · exact h.cons a

theorem reverse_iff : Precedes l.reverse x y ↔ Precedes l y x := by
  have hpair : [x, y] = [y, x].reverse := rfl
  rw [Precedes, hpair]
  exact List.reverse_sublist

theorem ne (hnodup : l.Nodup) (h : Precedes l x y) : x ≠ y := by
  rintro rfl
  exact List.nodup_iff_sublist.1 hnodup x h

theorem asymm (hnodup : l.Nodup) (h : Precedes l x y) : ¬ Precedes l y x := by
  intro hback
  induction l with
  | nil => cases h
  | cons a l ih =>
    obtain ⟨ha, hl⟩ := List.nodup_cons.1 hnodup
    rcases cons_iff.1 h with ⟨rfl, hy⟩ | hrest
    · rcases cons_iff.1 hback with ⟨rfl, -⟩ | hrestback
      · exact ha hy
      · exact ha hrestback.mem_right
    · rcases cons_iff.1 hback with ⟨rfl, -⟩ | hrestback
      · exact ha hrest.mem_right
      · exact ih hl hrest hrestback

theorem total (hx : x ∈ l) (hy : y ∈ l) (hne : x ≠ y) : Precedes l x y ∨ Precedes l y x := by
  induction l with
  | nil => cases hx
  | cons a l ih =>
    rw [cons_iff, cons_iff]
    rcases List.mem_cons.1 hx with rfl | hxl
    · exact Or.inl (Or.inl ⟨rfl, (List.mem_cons.1 hy).resolve_left hne.symm⟩)
    · rcases List.mem_cons.1 hy with rfl | hyl
      · exact Or.inr (Or.inl ⟨rfl, hxl⟩)
      · exact (ih hxl hyl).imp Or.inr Or.inr

end Precedes

/-! ## Sorted lists -/

section MergeSort

variable {β : Type} {order : β → β → Ordering} [Std.TransCmp order] {l l' : List β}

theorem isLE_or_isLE (order : β → β → Ordering) [Std.OrientedCmp order] (a b : β) :
    ((order a b).isLE || (order b a).isLE) = true := by
  have hswap : order b a = (order a b).swap := Std.OrientedCmp.eq_swap
  rw [hswap]
  cases order a b <;> rfl

theorem pairwise_mergeSort_isLE (l : List β) :
    (l.mergeSort fun a b => (order a b).isLE).Pairwise fun a b => (order a b).isLE = true :=
  List.pairwise_mergeSort (fun _ _ _ => Std.TransCmp.isLE_trans) (isLE_or_isLE order) l

/-- A sorted list is in order, and what the order does not tell apart stands as before. -/
theorem of_precedes_mergeSort {x y : β} (hnodup : l.Nodup)
    (h : Precedes (l.mergeSort fun a b => (order a b).isLE) x y) :
    (order x y).isLE = true ∧ (order x y = .eq → Precedes l x y) := by
  refine ⟨List.pairwise_iff_forall_sublist.1 (pairwise_mergeSort_isLE l) h, ?_⟩
  intro heq
  have hsorted : (l.mergeSort fun a b => (order a b).isLE).Nodup :=
    (List.mergeSort_perm l _).nodup_iff.2 hnodup
  have hx : x ∈ l := (List.mergeSort_perm l _).mem_iff.1 h.mem_left
  have hy : y ∈ l := (List.mergeSort_perm l _).mem_iff.1 h.mem_right
  refine (Precedes.total hx hy (h.ne hsorted)).resolve_right fun hback => ?_
  have hle : (order y x).isLE = true := by
    rw [Std.OrientedCmp.eq_symm heq]
    rfl
  exact h.asymm hsorted (List.pair_sublist_mergeSort (fun _ _ _ => Std.TransCmp.isLE_trans)
    (isLE_or_isLE order) hle hback)

/-- When no two members are equal under the order, sorting forgets how they stood before. -/
theorem mergeSort_eq_of_perm (hperm : l.Perm l')
    (hties : ∀ x ∈ l, ∀ y ∈ l, order x y = .eq → x = y) :
    (l.mergeSort fun a b => (order a b).isLE) = l'.mergeSort fun a b => (order a b).isLE := by
  have hsorted := List.mergeSort_perm l fun a b => (order a b).isLE
  have hsorted' := List.mergeSort_perm l' fun a b => (order a b).isLE
  refine List.Perm.eq_of_pairwise ?_ (pairwise_mergeSort_isLE l) (pairwise_mergeSort_isLE l')
    (hsorted.trans (hperm.trans hsorted'.symm))
  intro x y hx hy hxy hyx
  have hxl : x ∈ l := hsorted.mem_iff.1 hx
  have hyl : y ∈ l := hperm.mem_iff.2 (hsorted'.mem_iff.1 hy)
  exact hties x hxl y hyl (Std.OrientedCmp.isLE_antisymm hxy hyx)

end MergeSort

namespace Columns

variable {α : Type} {c : Columns α} {column : Column α} {siblings : List (Entry α)}
  {x y : Entry α}

/-! ## Clicks on a header -/

theorem has_click (h : c.has c.sortColumn = true) (name : String) :
    (c.click name).has (c.click name).sortColumn = true := by
  unfold click
  split
  · exact h
  · rename_i hname
    have hhas : c.has name = true := by simpa using hname
    split
    · exact h
    · exact hhas

theorem order_click_ne {name : String} (h : c.has name = true) :
    ¬ ((c.click name).sortColumn = c.sortColumn ∧ (c.click name).descending = c.descending) := by
  rw [click, h]
  by_cases hname : c.sortColumn = name
  · simp [hname]
  · simp [hname, Ne.symm hname]

theorem list_click (c : Columns α) (name : String) : (c.click name).list = c.list := by
  unfold click
  split
  · rfl
  · split <;> rfl

theorem exists_active? (h : c.has c.sortColumn = true) :
    ∃ column ∈ c.list, c.active? = some column := by
  obtain ⟨column, hactive⟩ := Option.isSome_iff_exists.1 (List.find?_isSome.2 (List.any_eq_true.1 h))
  exact ⟨column, List.mem_of_find?_eq_some hactive, hactive⟩

/-! ## Sorting -/

theorem sort_perm (c : Columns α) (entries : List (Entry α)) :
    (c.sort entries).Perm entries := by
  rw [sort]
  cases c.active? with
  | none =>
    split
    · exact List.reverse_perm _
    · exact List.Perm.refl _
  | some column =>
    have hsorted := List.mergeSort_perm entries fun a b => (column.order a b).isLE
    split
    · exact (List.reverse_perm _).trans hsorted
    · exact hsorted

/-- When the active column sees no more of entries than `view` shows and no two siblings are equal
under it, siblings that are the same in `view` are sorted in the same way, however they stood. -/
theorem sort_map_eq [Std.TransCmp column.order] (hactive : c.active? = some column)
    {view : Entry α → Entry α} (hview : ∀ a b, column.order (view a) (view b) = column.order a b)
    {siblings' : List (Entry α)} (hperm : (siblings.map view).Perm (siblings'.map view))
    (hties : ∀ x ∈ siblings, ∀ y ∈ siblings, column.order x y = .eq → x = y) :
    (c.sort siblings).map view = (c.sort siblings').map view := by
  have hmap (l : List (Entry α)) :
      (l.mergeSort fun a b => (column.order a b).isLE).map view =
        (l.map view).mergeSort fun a b => (column.order a b).isLE :=
    List.map_mergeSort fun a _ b _ => by rw [hview]
  have hviewties : ∀ x ∈ siblings.map view, ∀ y ∈ siblings.map view,
      column.order x y = .eq → x = y := by
    simp only [List.forall_mem_map, hview]
    intro x hx y hy heq
    rw [hties x hx y hy heq]
  have hsorted := mergeSort_eq_of_perm hperm hviewties
  rw [← hmap, ← hmap] at hsorted
  rw [sort, sort, hactive]
  split
  · rw [List.map_reverse, List.map_reverse, hsorted]
  · exact hsorted

def unsorted (c : Columns α) : Columns α :=
  { c with sortColumn := "", list := [] }

theorem sort_unsorted (h : ∀ column ∈ c.active?,
    siblings.Pairwise fun x y => (column.order x y).isLE = true) :
    c.unsorted.sort siblings = c.sort siblings := by
  have hunsorted : c.unsorted.active? = none := rfl
  rw [sort, sort, hunsorted]
  cases hactive : c.active? with
  | none => rfl
  | some column =>
    dsimp only
    rw [List.mergeSort_of_pairwise (h column hactive)]
    rfl

def turned (c : Columns α) : Columns α :=
  { c with descending := !c.descending }

theorem sort_turned (c : Columns α) (entries : List (Entry α)) :
    c.turned.sort entries = (c.sort entries).reverse := by
  have hactive : c.turned.active? = c.active? := rfl
  rw [sort, sort, hactive, turned]
  cases c.descending
  · rfl
  · simp

/-- Siblings stand as the order of the active column says, and as they were given where it does not
tell them apart, or the other way round in a descending listing. -/
def Agrees (c : Columns α) (column : Column α) (siblings : List (Entry α)) (x y : Entry α) :
    Prop :=
  if c.descending then
    column.order x y ≠ .lt ∧ (column.order x y = .eq → Precedes siblings y x)
  else column.order x y ≠ .gt ∧ (column.order x y = .eq → Precedes siblings x y)

theorem agrees_of_precedes_sort [Std.TransCmp column.order] (hactive : c.active? = some column)
    (hnodup : siblings.Nodup) (h : Precedes (c.sort siblings) x y) :
    c.Agrees column siblings x y := by
  have hswap : column.order y x = (column.order x y).swap := Std.OrientedCmp.eq_swap
  rw [sort, hactive] at h
  rw [Agrees]
  split at h
  · rename_i hdescending
    obtain ⟨hle, hstable⟩ := of_precedes_mergeSort hnodup (Precedes.reverse_iff.1 h)
    rw [if_pos hdescending]
    rw [hswap] at hle hstable
    constructor
    · intro hlt
      rw [hlt] at hle
      cases hle
    · intro heq
      exact hstable (by rw [heq]; rfl)
  · rename_i hascending
    obtain ⟨hle, hstable⟩ := of_precedes_mergeSort hnodup h
    rw [if_neg hascending]
    refine ⟨fun hgt => ?_, hstable⟩
    rw [hgt] at hle
    cases hle

end Columns

end TreeBrowser
