import TreeBrowser.Json.Reader
import TreeBrowser.Proofs.Json.Record

/-!
# Depth

How deep a value is compared with its parts, and what the limit on the depth of documents does: a
document that is read as a whole is one that the limit leaves as it is.
-/

namespace TreeBrowser.Json

theorem depthElems_le_iff {elems : List Json} {n : Nat} :
    depthElems elems ≤ n ↔ ∀ v ∈ elems, v.depth ≤ n := by
  induction elems with
  | nil => simp [depthElems]
  | cons v rest ih => rw [depthElems, Nat.max_le, ih, List.forall_mem_cons]

theorem depthMembers_le_iff {members : List (String × Json)} {n : Nat} :
    depthMembers members ≤ n ↔ ∀ m ∈ members, m.2.depth ≤ n := by
  induction members with
  | nil => simp [depthMembers]
  | cons m rest ih => rw [depthMembers, Nat.max_le, ih, List.forall_mem_cons]

theorem depth_le_depthElems {elems : List Json} {v : Json} (h : v ∈ elems) :
    v.depth ≤ depthElems elems :=
  depthElems_le_iff.1 (Nat.le_refl _) v h

theorem depth_le_depthMembers {members : List (String × Json)} {key : String} {v : Json}
    (h : find key members = .once v) : v.depth ≤ depthMembers members :=
  depthMembers_le_iff.1 (Nat.le_refl _) _ (mem_of_find_eq_once h)

theorem depthMembers_lt_of_record? {fields : List String} {v : Json}
    {members : List (String × Json)} (h : record? fields v = some members) :
    depthMembers members < v.depth := by
  cases v with
  | obj members' =>
    cases h
    rw [depth]
    omega
  | arr elems =>
    simp only [record?] at h
    split at h
    · cases h
      rw [depth, Nat.lt_succ_iff, depthMembers_le_iff]
      intro m hm
      exact depth_le_depthElems (List.of_mem_zip hm).2
    · cases h
  | _ => cases h

/-! ## The limit of documents -/

mutual

theorem clip_eq_self (v : Json) {limit : Nat} (h : v.depth ≤ limit) : v.clip limit = v := by
  cases v with
  | arr elems =>
    rw [depth] at h
    obtain ⟨limit, rfl⟩ := Nat.exists_eq_add_of_le' (Nat.one_le_of_lt h)
    rw [clip, clipElems_eq_self elems (Nat.le_of_succ_le_succ h)]
  | obj members =>
    rw [depth] at h
    obtain ⟨limit, rfl⟩ := Nat.exists_eq_add_of_le' (Nat.one_le_of_lt h)
    rw [clip, clipMembers_eq_self members (Nat.le_of_succ_le_succ h)]
  | _ => rw [clip] <;> nofun

theorem clipElems_eq_self (elems : List Json) {limit : Nat} (h : depthElems elems ≤ limit) :
    clipElems limit elems = elems := by
  cases elems with
  | nil => rfl
  | cons v rest =>
    rw [depthElems, Nat.max_le] at h
    rw [clipElems, clip_eq_self v h.1, clipElems_eq_self rest h.2]

theorem clipMembers_eq_self (members : List (String × Json)) {limit : Nat}
    (h : depthMembers members ≤ limit) : clipMembers limit members = members := by
  cases members with
  | nil => rfl
  | cons m rest =>
    obtain ⟨key, v⟩ := m
    rw [depthMembers, Nat.max_le] at h
    rw [clipMembers, clip_eq_self v h.1, clipMembers_eq_self rest h.2]

end

mutual

theorem depth_le_of_readable_clip (v : Json) {limit : Nat} (h : (v.clip limit).readable = true) :
    v.depth ≤ limit := by
  cases v with
  | arr elems =>
    cases limit with
    | zero => cases h
    | succ limit => exact Nat.succ_le_succ (depthElems_le_of_readable_clip elems h)
  | obj members =>
    cases limit with
    | zero => cases h
    | succ limit => exact Nat.succ_le_succ (depthMembers_le_of_readable_clip members h)
  | _ => exact Nat.zero_le _

theorem depthElems_le_of_readable_clip (elems : List Json) {limit : Nat}
    (h : readableElems (clipElems limit elems) = true) : depthElems elems ≤ limit := by
  cases elems with
  | nil => exact Nat.zero_le _
  | cons v rest =>
    rw [clipElems, readableElems, Bool.and_eq_true] at h
    exact Nat.max_le.2
      ⟨depth_le_of_readable_clip v h.1, depthElems_le_of_readable_clip rest h.2⟩

theorem depthMembers_le_of_readable_clip (members : List (String × Json)) {limit : Nat}
    (h : readableMembers (clipMembers limit members) = true) : depthMembers members ≤ limit := by
  cases members with
  | nil => exact Nat.zero_le _
  | cons m rest =>
    obtain ⟨key, v⟩ := m
    rw [clipMembers, readableMembers, Bool.and_eq_true] at h
    exact Nat.max_le.2
      ⟨depth_le_of_readable_clip v h.1, depthMembers_le_of_readable_clip rest h.2⟩

end

/-- A document that is read as a whole has the value that its text writes. -/
theorem ofWholeDocument?_eq_some_iff {text : String} {v : Json} :
    ofWholeDocument? text = some v ↔
      ofText? text = some v ∧ v.depth ≤ depthLimit ∧ v.readable = true := by
  rw [ofWholeDocument?, ofDocument?, Option.filter_eq_some_iff, Option.map_eq_some_iff]
  constructor
  · rintro ⟨⟨w, hw, rfl⟩, hreadable⟩
    have hdepth := depth_le_of_readable_clip w hreadable
    rw [clip_eq_self w hdepth] at hreadable ⊢
    exact ⟨hw, hdepth, hreadable⟩
  · rintro ⟨hv, hdepth, hreadable⟩
    exact ⟨⟨v, hv, clip_eq_self v hdepth⟩, hreadable⟩

end TreeBrowser.Json
