import TreeBrowser.Expansion
import TreeBrowser.Proofs.Tree.Family

/-!
# Sets of open folders

What an expansion contains after each of its operations, and whether an operation has anything to
do. An expansion is sound for a tree when it contains only folders of the tree.
-/

namespace TreeBrowser.Expansion

variable {α : Type} {x y : Expansion} {t : Tree α} {id other : EntryId}

theorem eq_of_ids_eq (h : x.ids = y.ids) : x = y := by
  cases x
  cases y
  cases h
  rfl

theorem contains_iff : x.contains id = true ↔ id ∈ x.ids := by
  rw [contains, List.contains_iff_mem]

theorem contains_filter {test : EntryId → Bool} :
    (x.filter test).contains id = true ↔ x.contains id = true ∧ test id = true := by
  rw [contains_iff, contains_iff, filter, List.mem_filter]

theorem contains_insert :
    (x.insert id).contains other = true ↔ other = id ∨ x.contains other = true := by
  rw [contains_iff, contains_iff, insert]
  split
  · rename_i hmem
    constructor
    · exact Or.inr
    · rintro (rfl | hother)
      · exact hmem
      · exact hother
  · exact List.mem_cons

/-! ## Opening and closing -/

theorem contains_expand :
    (x.expand t id).contains other = true ↔
      x.contains other = true ∨ other = id ∧ t.isNode id = true := by
  unfold expand
  split
  · rename_i hnode
    rw [contains_insert, or_comm]
    simp [hnode]
  · rename_i hnode
    simp [hnode]

theorem contains_collapse :
    (x.collapse id).contains other = true ↔ x.contains other = true ∧ other ≠ id := by
  rw [collapse, erase, contains_filter, bne_iff_ne]

theorem expand_eq_self (h : t.isNode id = false) : x.expand t id = x := by
  rw [expand, h]
  rfl

theorem collapse_eq_self (h : x.contains id = false) : x.collapse id = x := by
  apply eq_of_ids_eq
  show x.ids.filter (fun other => other != id) = x.ids
  refine List.filter_eq_self.2 fun other hother => bne_iff_ne.2 ?_
  rintro rfl
  rw [contains_iff.2 hother] at h
  cases h

theorem collapse_expand (hclosed : x.contains id = false) : (x.expand t id).collapse id = x := by
  unfold expand
  split
  · have hmem : id ∉ x.ids := fun hmem => by
      rw [contains_iff.2 hmem] at hclosed
      cases hclosed
    have hinsert : (x.insert id).ids = id :: x.ids := by rw [insert, dif_neg hmem]
    apply eq_of_ids_eq
    calc ((x.insert id).collapse id).ids
        = (id :: x.ids).filter fun other => other != id := by rw [← hinsert]; rfl
      _ = x.ids.filter fun other => other != id := List.filter_cons_of_neg (by simp)
      _ = x.ids := congrArg ids (collapse_eq_self hclosed)
  · exact collapse_eq_self hclosed

/-- Two sets of open folders are told apart by what they contain, not by how they are held. -/
def Same (x y : Expansion) : Prop :=
  ∀ id, x.contains id = true ↔ y.contains id = true

theorem Same.refl (x : Expansion) : x.Same x :=
  fun _ => Iff.rfl

theorem expands_iff : x.expands t id = true ↔ ¬ (x.expand t id).Same x := by
  rw [expands, Bool.and_eq_true, Bool.not_eq_true', Bool.eq_false_iff]
  constructor
  · rintro ⟨hnode, hclosed⟩ hsame
    exact hclosed ((hsame id).1 (contains_expand.2 (Or.inr ⟨rfl, hnode⟩)))
  · intro hdiffers
    by_contra hidle
    apply hdiffers
    intro other
    rw [contains_expand]
    constructor
    · rintro (hother | ⟨rfl, hnode⟩)
      · exact hother
      · by_contra hclosed
        exact hidle ⟨hnode, hclosed⟩
    · exact Or.inl

theorem collapses_iff : x.collapses id = true ↔ ¬ (x.collapse id).Same x := by
  rw [collapses]
  constructor
  · intro hopen hsame
    exact (contains_collapse.1 ((hsame id).2 hopen)).2 rfl
  · intro hdiffers
    by_contra hclosed
    apply hdiffers
    intro other
    rw [contains_collapse, and_iff_left_iff_imp]
    rintro hother rfl
    exact hclosed hother

theorem toggles_iff : x.toggles t id = true ↔ ¬ (x.toggle t id).Same x := by
  unfold toggles toggle
  split
  · exact collapses_iff
  · exact expands_iff

/-! ## Folders of a tree -/

def Sound (x : Expansion) (t : Tree α) : Prop :=
  ∀ id, x.contains id = true → t.isNode id = true

theorem sound_retainExisting (x : Expansion) (t : Tree α) : (x.retainExisting t).Sound t :=
  fun _ hid => (contains_filter.1 hid).2

namespace Sound

theorem empty : Expansion.empty.Sound t :=
  nofun

theorem filter (h : x.Sound t) (test : EntryId → Bool) : (x.filter test).Sound t :=
  fun id hid => h id (contains_filter.1 hid).1

theorem expand (h : x.Sound t) (id : EntryId) : (x.expand t id).Sound t := by
  unfold Expansion.expand
  split
  · rename_i hnode
    intro other hother
    rcases contains_insert.1 hother with rfl | hother
    · exact hnode
    · exact h other hother
  · exact h

theorem toggle (h : x.Sound t) (id : EntryId) : (x.toggle t id).Sound t := by
  unfold Expansion.toggle
  split
  · exact h.filter _
  · exact h.expand id

theorem retainExisting_eq (h : x.Sound t) {t' : Tree α}
    (hsame : ∀ id, t.isNode id = true → t'.isNode id = true) : x.retainExisting t' = x := by
  apply eq_of_ids_eq
  show x.ids.filter t'.isNode = x.ids
  exact List.filter_eq_self.2 fun id hid => hsame id (h id (contains_iff.2 hid))

theorem contains_eq_false (hx : x.Sound t) (h : t.isNode id = false) :
    x.contains id = false := by
  cases hopen : x.contains id with
  | false => rfl
  | true =>
    rw [hx id hopen] at h
    cases h

end Sound

end TreeBrowser.Expansion
