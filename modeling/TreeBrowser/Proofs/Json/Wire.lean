import TreeBrowser.Json.Printer
import TreeBrowser.Proofs.Json.Depth
import TreeBrowser.Proofs.Json.Scan

/-!
# Readers and writers that belong together

What a writer writes, its reader takes back, from the value and from the text of the value. A written
value is the least deep of those that are read as the same.
-/

namespace TreeBrowser.Json

variable {α : Type} {read : Json → Option α} {write : α → Json}

theorem ofWholeDocument?_toText {v : Json} (hexact : v.Exact) (hdepth : v.depth ≤ depthLimit) :
    ofWholeDocument? v.toText = some v :=
  ofWholeDocument?_eq_some_iff.2 ⟨ofText?_toText hexact, hdepth, readable_of_exact v hexact⟩

/-! ## Members -/

theorem depthMembers_append (before after : List (String × Json)) :
    depthMembers (before ++ after) = max (depthMembers before) (depthMembers after) := by
  induction before with
  | nil => simp [depthMembers]
  | cons m rest ih => rw [List.cons_append, depthMembers, depthMembers, ih, Nat.max_assoc]

theorem depthMembers_optionalMember (write : α → Json) (h : ∀ a, (write a).depth = 0)
    (key : String) (a : Option α) : depthMembers (optionalMember key (a.map write)) = 0 := by
  cases a with
  | none => rfl
  | some a => simp [optionalMember, depthMembers, h]

theorem exactMembers_append {before after : List (String × Json)} :
    ExactMembers (before ++ after) ↔ ExactMembers before ∧ ExactMembers after := by
  induction before with
  | nil => simp [ExactMembers]
  | cons m rest ih => rw [List.cons_append, ExactMembers, ExactMembers, ih, and_assoc]

theorem exactMembers_optionalMember {key : String} {v : Option Json} :
    ExactMembers (optionalMember key v) ↔ ∀ x ∈ v, x.Exact := by
  cases v with
  | none => simp [optionalMember, ExactMembers]
  | some v => simp [optionalMember, ExactMembers]

theorem exactElems_iff {elems : List Json} : ExactElems elems ↔ ∀ v ∈ elems, v.Exact := by
  induction elems with
  | nil => simp [ExactElems]
  | cons v rest ih => rw [ExactElems, ih, List.forall_mem_cons]

theorem exactMembers_iff {members : List (String × Json)} :
    ExactMembers members ↔ ∀ m ∈ members, m.2.Exact := by
  induction members with
  | nil => simp [ExactMembers]
  | cons m rest ih => rw [ExactMembers, ih, List.forall_mem_cons]

/-! ## Wires -/

/-- A reader and a writer of the same values. -/
structure Wire (read : Json → Option α) (write : α → Json) : Prop where
  read_write (a : α) : read (write a) = some a
  exact (a : α) : (write a).Exact
  depth_le {v : Json} {a : α} : read v = some a → (write a).depth ≤ v.depth

namespace Wire

theorem str : Wire str? .str where
  read_write _ := rfl
  exact _ := trivial
  depth_le _ := Nat.zero_le _

theorem bool : Wire bool? .bool where
  read_write _ := rfl
  exact _ := trivial
  depth_le _ := Nat.zero_le _

theorem natBelow?_natCast {n bound : Nat} (h : n < bound) :
    natBelow? bound (.int n) = some n :=
  if_pos h

theorem uint32 : Wire uint32? ofUInt32 where
  read_write n := by
    rw [uint32?, ofUInt32, natBelow?_natCast n.toNat_lt_size, Option.map_some, UInt32.ofNat_toNat]
  exact n := Nat.lt_trans n.toNat_lt_size (by decide)
  depth_le _ := Nat.zero_le _

theorem uint64 : Wire uint64? ofUInt64 where
  read_write n := by
    rw [uint64?, ofUInt64, natBelow?_natCast n.toNat_lt_size, Option.map_some, UInt64.ofNat_toNat]
  exact n := n.toNat_lt_size
  depth_le _ := Nat.zero_le _

theorem list (h : Wire read write) : Wire (list? read) fun l => .arr (l.map write) where
  read_write l := by
    show (l.map write).mapM read = some l
    induction l with
    | nil => rfl
    | cons a rest ih => simp [h.read_write a, ih]
  exact l := by
    refine exactElems_iff.2 fun v hv => ?_
    obtain ⟨a, -, rfl⟩ := List.mem_map.1 hv
    exact h.exact a
  depth_le {v l} hread := by
    cases v with
    | arr elems =>
      refine Nat.succ_le_succ ?_
      change elems.mapM read = some l at hread
      induction elems generalizing l with
      | nil =>
        cases hread
        exact Nat.zero_le _
      | cons v rest ih =>
        simp only [List.mapM_cons, Option.bind_eq_bind, Option.bind_eq_some_iff, Option.pure_def,
          Option.some.injEq] at hread
        obtain ⟨a, ha, l, hl, rfl⟩ := hread
        have hfirst := h.depth_le ha
        have hrest := ih hl
        rw [List.map_cons, depthElems, depthElems]
        omega
    | _ => cases hread

/-- A field that may be absent is read back when no null is written for it. -/
theorem optional_write (h : Wire read write) (hnull : ∀ a, write a ≠ .null) (a : Option α) :
    Found.optional read (a.elim .missing (.once ∘ write)) = some a := by
  cases a with
  | none => rfl
  | some a =>
    show (Found.once (write a)).optional read = _
    rw [Found.optional_once (hnull a), h.read_write, Option.map_some]

end Wire

end TreeBrowser.Json
