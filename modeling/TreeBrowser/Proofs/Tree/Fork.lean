import TreeBrowser.Proofs.Tree.Ancestry

/-!
# Where two entries part

Of two entries, either one encloses the other or there is a folder at which the ways to them part:
they lie within different children of it. The ways part only once, so folder and children are
determined by the two entries.
-/

namespace TreeBrowser.Tree

variable {α : Type} {t : Tree α} {p c d x y a b : Entry α}

theorem Within.trans (hxa : t.Within x a) (hab : t.Within a b) : t.Within x b := by
  rcases hxa with rfl | hxa
  · exact hab
  · rcases hab with rfl | hab
    · exact Or.inr hxa
    · exact Or.inr (isDescendantOf_trans hxa hab)

theorem Within.isDescendantOf (hp : p ∈ t.entries) (hc : c ∈ t.childrenOf p)
    (hxc : t.Within x c) : t.isDescendantOf x.id p.id = true := by
  have hchild : t.isDescendantOf c.id p.id = true :=
    (isDescendantOf_child hp hc p.id).2 (Or.inl rfl)
  rcases hxc with rfl | hxc
  · exact hchild
  · exact isDescendantOf_trans hxc hchild

theorem exists_child_within (hp : p ∈ t.entries) (hx : x ∈ t.entries)
    (hdesc : t.isDescendantOf x.id p.id = true) : ∃ c ∈ t.childrenOf p, t.Within x c := by
  induction hx using entries_induction with
  | root =>
    rw [isDescendantOf_iff, ancestors_root] at hdesc
    obtain ⟨a, ha, -⟩ := hdesc
    cases ha
  | child q hq ih x hxq =>
    rcases (isDescendantOf_child hq hxq p.id).1 hdesc with hid | hdesc
    · obtain rfl := eq_of_id_eq hq hp hid
      exact ⟨x, hxq, Or.inl rfl⟩
    · obtain ⟨c, hc, hqc⟩ := ih hdesc
      have hxin : t.Within x q := Or.inr ((isDescendantOf_child hq hxq q.id).2 (Or.inl rfl))
      exact ⟨c, hc, hxin.trans hqc⟩

/-- Of two entries that enclose a third, one is within the other. -/
theorem within_or_within (ha : a ∈ t.entries) (hb : b ∈ t.entries) (hx : x ∈ t.entries)
    (hxa : t.Within x a) (hxb : t.Within x b) : t.Within a b ∨ t.Within b a := by
  have hwithin {a b : Entry α} (ha : a ∈ t.entries) (hb : b ∈ t.entries)
      (h : t.lineage a.id <:+ t.lineage b.id) : t.Within b a := by
    rw [lineage_eq_cons ha, lineage_eq_cons hb] at h
    rcases List.mem_cons.1 (h.subset List.mem_cons_self) with rfl | hmem
    · exact Or.inl rfl
    · exact Or.inr (isDescendantOf_iff.2 ⟨a, hmem, rfl⟩)
  rcases List.suffix_or_suffix_of_suffix (hxa.lineage_suffix ha hx) (hxb.lineage_suffix hb hx)
    with h | h
  · exact Or.inr (hwithin ha hb h)
  · exact Or.inl (hwithin hb ha h)

/-- The ways to `x` and `y` part at the folder `p`: they lie within its children `c` and `d`. -/
structure Forks (t : Tree α) (p c d x y : Entry α) : Prop where
  folder : p ∈ t.entries
  left : c ∈ t.childrenOf p
  right : d ∈ t.childrenOf p
  ne : c ≠ d
  mem_left : x ∈ t.entries
  mem_right : y ∈ t.entries
  within_left : t.Within x c
  within_right : t.Within y d

namespace Forks

theorem symm (h : t.Forks p c d x y) : t.Forks p d c y x :=
  ⟨h.folder, h.right, h.left, h.ne.symm, h.mem_right, h.mem_left, h.within_right, h.within_left⟩

theorem left_eq (h : t.Forks p c d x y) {k : Entry α} (hk : k ∈ t.childrenOf p)
    (hx : t.Within x k) : c = k :=
  eq_of_common_descendant h.folder h.left hk h.mem_left h.within_left hx

theorem right_eq (h : t.Forks p c d x y) {k : Entry α} (hk : k ∈ t.childrenOf p)
    (hy : t.Within y k) : d = k :=
  h.symm.left_eq hk hy

/-- Neither of two entries whose ways part encloses the other. -/
theorem not_isDescendantOf (h : t.Forks p c d x y) : ¬ t.isDescendantOf y.id x.id = true := by
  intro hdesc
  have hy : t.Within y c := Within.trans (Or.inr hdesc) h.within_left
  exact h.ne (h.right_eq h.left hy).symm

/-- The ways do not part below a folder at which they have parted. -/
theorem within_folder (h : t.Forks p c d x y) {p' c' d' : Entry α} (h' : t.Forks p' c' d' x y)
    (hp : t.Within p' p) : p' = p := by
  refine hp.resolve_right fun hdesc => ?_
  obtain ⟨k, hk, hpk⟩ := exists_child_within h.folder h'.folder hdesc
  have hx := h'.within_left.isDescendantOf h'.folder h'.left
  have hy := h'.within_right.isDescendantOf h'.folder h'.right
  have hxk : t.Within x k := Within.trans (Or.inr hx) hpk
  have hyk : t.Within y k := Within.trans (Or.inr hy) hpk
  exact h.ne ((h.left_eq hk hxk).trans (h.right_eq hk hyk).symm)

theorem unique (h : t.Forks p c d x y) {p' c' d' : Entry α} (h' : t.Forks p' c' d' x y) :
    p' = p ∧ c' = c ∧ d' = d := by
  have hx := h.within_left.isDescendantOf h.folder h.left
  have hx' := h'.within_left.isDescendantOf h'.folder h'.left
  -- Both folders enclose `x`, so one is within the other.
  have hfolder : p' = p := by
    rcases within_or_within h'.folder h.folder h.mem_left (Or.inr hx') (Or.inr hx) with hp | hp
    · exact h.within_folder h' hp
    · exact (h'.within_folder h hp).symm
  subst hfolder
  exact ⟨rfl, h'.left_eq h.left h.within_left, h'.right_eq h.right h.within_right⟩

end Forks

end TreeBrowser.Tree
