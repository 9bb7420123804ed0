import TreeBrowser.Proofs.Selection

/-!
# Ranges by rows

A range between two rows is the run of rows from one to the other. A range gesture with one end out
of sight does not always reach the entry from which it is drawn. `range_law` says what a range is,
whatever its ends are and whatever stands in the rows.
-/

namespace TreeBrowser

/-- The rows from one to another, both among them, whichever comes first. -/
def between (rows : List EntryId) (i j : Nat) : List EntryId :=
  (rows.take (max i j + 1)).drop (min i j)

theorem getElem_mem_slice {rows : List EntryId} {first last i : Nat} (hi : i < rows.length)
    (hfirst : first ≤ i) (hlast : i ≤ last) : rows[i] ∈ (rows.take (last + 1)).drop first := by
  rw [List.mem_drop_iff_getElem]
  have hlength : i - first + first < (rows.take (last + 1)).length := by
    rw [List.length_take]
    omega
  refine ⟨i - first, hlength, ?_⟩
  have hsum : first + (i - first) = i := by omega
  simp only [hsum, List.getElem_take]

theorem idxOf?_getElem {rows : List EntryId} (hnodup : rows.Nodup) {i : Nat}
    (hi : i < rows.length) : rows.idxOf? rows[i] = some i := by
  rw [List.idxOf?_eq_some_iff]
  refine ⟨hi, rfl, fun j hj heq => ?_⟩
  have hsame := (hnodup.getElem_inj_iff).1 heq
  omega

theorem rangeBetween_getElem {rows : List EntryId} (hnodup : rows.Nodup) {i j : Nat}
    (hi : i < rows.length) (hj : j < rows.length) (policy : MissingEndpoint) :
    rangeBetween rows rows[i] rows[j] policy = between rows i j := by
  rw [rangeBetween, idxOf?_getElem hnodup hi, idxOf?_getElem hnodup hj]
  rfl

theorem nodup_between {rows : List EntryId} (hnodup : rows.Nodup) (i j : Nat) :
    (between rows i j).Nodup :=
  ((List.drop_sublist _ _).trans (List.take_sublist _ _)).nodup hnodup

theorem between_self {rows : List EntryId} {i : Nat} (hi : i < rows.length) :
    between rows i i = [rows[i]] := by
  rw [between, Nat.max_self, Nat.min_self, List.take_succ_eq_append_getElem hi,
    List.drop_left' (by rw [List.length_take]; omega)]

/-- A range reaches the end from which it is drawn when that end is a row, and either the other end
is one too or the policy makes up for it. -/
theorem mem_rangeBetween_iff {rows : List EntryId} {anchor id : EntryId}
    {policy : MissingEndpoint} :
    anchor ∈ rangeBetween rows anchor id policy ↔
      anchor ∈ rows ∧ (id ∈ rows ∨ policy = .clampToStart) := by
  constructor
  · intro h
    refine ⟨(rangeBetween_sublist rows anchor id policy).subset h, ?_⟩
    by_contra hmissed
    rw [not_or] at hmissed
    have hid : rows.idxOf? id = none := List.idxOf?_eq_none_iff.2 hmissed.1
    cases policy with
    | clampToStart => exact hmissed.2 rfl
    | empty =>
      rw [rangeBetween, hid] at h
      cases hanchor : rows.idxOf? anchor <;> simp [hanchor, rangeBounds?] at h
  · rintro ⟨hanchor, hid⟩
    obtain ⟨i, hi⟩ := Option.isSome_iff_exists.1 (List.isSome_idxOf?.2 hanchor)
    obtain ⟨hlt, hget, -⟩ := List.idxOf?_eq_some_iff.1 hi
    rw [rangeBetween, hi]
    cases hj : rows.idxOf? id with
    | some j =>
      have hmem := getElem_mem_slice hlt (Nat.min_le_left i j) (Nat.le_max_left i j)
      rwa [hget] at hmem
    | none =>
      rcases hid with hid | rfl
      · exact absurd hid (List.idxOf?_eq_none_iff.1 hj)
      · have hmem := getElem_mem_slice hlt (Nat.zero_le i) (Nat.le_refl i)
        rwa [hget] at hmem

/-! ## The law of ranges -/

section Law

variable {rows : List EntryId} {a b c id : EntryId} {i j k : Nat} {policy : MissingEndpoint}

structure FirstAt (rows : List EntryId) (id : EntryId) (i : Nat) : Prop where
  here : rows[i]? = some id
  earlier : ∀ j < i, rows[j]? ≠ some id

/-- `run` is what stands in the rows from `first` to `last`, both among them. -/
def StandsAt (rows run : List EntryId) (first last : Nat) : Prop :=
  ∃ before after, rows = before ++ run ++ after ∧
    before.length = first ∧ (before ++ run).length = last + 1

/-- The run `whole` consists of `upper` and `lower`, in this order, which have `id` in common and
nothing else. -/
structure JoinedAt (id : EntryId) (upper lower whole : List EntryId) : Prop where
  joined : ∃ front back, upper = front ++ [id] ∧ lower = id :: back ∧ whole = front ++ id :: back
  common : ∀ other ∈ upper, other ∈ lower → other = id

theorem firstAt_iff : FirstAt rows id i ↔ rows.idxOf? id = some i := by
  rw [List.idxOf?_eq_some_iff]
  constructor
  · rintro ⟨hhere, hearlier⟩
    obtain ⟨hi, hget⟩ := List.getElem?_eq_some_iff.1 hhere
    refine ⟨hi, hget, fun j hj heq => hearlier j hj ?_⟩
    rw [List.getElem?_eq_getElem (Nat.lt_trans hj hi), heq]
  · rintro ⟨hi, hget, hearlier⟩
    refine ⟨List.getElem?_eq_some_iff.2 ⟨hi, hget⟩, fun j hj heq => hearlier j hj ?_⟩
    exact (List.getElem?_eq_some_iff.1 heq).2

theorem FirstAt.lt_length (h : FirstAt rows id i) : i < rows.length :=
  (List.getElem?_eq_some_iff.1 h.here).1

theorem firstAt_of_nodup (hnodup : rows.Nodup) (h : rows[i]? = some id) : FirstAt rows id i := by
  obtain ⟨hi, rfl⟩ := List.getElem?_eq_some_iff.1 h
  exact firstAt_iff.2 (idxOf?_getElem hnodup hi)

theorem standsAt_slice {first last : Nat} (hfirst : first ≤ last)
    (hlast : last < rows.length) :
    StandsAt rows ((rows.take (last + 1)).drop first) first last := by
  refine ⟨rows.take first, rows.drop (last + 1), ?_, ?_, ?_⟩
  · have htake : rows.take first = (rows.take (last + 1)).take first := by
      rw [List.take_take, Nat.min_eq_left (by omega)]
    rw [htake, List.take_append_drop, List.take_append_drop]
  · rw [List.length_take]
    omega
  · rw [List.length_append, List.length_drop, List.length_take, List.length_take]
    omega

theorem rangeBetween_comm (rows : List EntryId) (a b : EntryId) (policy : MissingEndpoint) :
    rangeBetween rows a b policy = rangeBetween rows b a policy := by
  have hbounds (i j : Option Nat) : rangeBounds? policy i j = rangeBounds? policy j i := by
    cases i with
    | none => cases j <;> rfl
    | some i =>
      cases j with
      | none => rfl
      | some j => simp only [rangeBounds?, Nat.min_comm, Nat.max_comm]
  rw [rangeBetween, rangeBetween, hbounds]

theorem rangeBetween_of_firstAt (ha : FirstAt rows a i) (hb : FirstAt rows b j)
    (policy : MissingEndpoint) :
    rangeBetween rows a b policy = between rows i j := by
  rw [rangeBetween, firstAt_iff.1 ha, firstAt_iff.1 hb]
  rfl

theorem rangeBounds?_lt {n first last : Nat} {a b : Option Nat}
    (ha : ∀ i ∈ a, i < n) (hb : ∀ j ∈ b, j < n)
    (h : rangeBounds? policy a b = some (first, last)) : first ≤ last ∧ last < n := by
  cases a with
  | none =>
    cases b with
    | none => cases h
    | some j =>
      cases policy with
      | empty => cases h
      | clampToStart =>
        cases h
        exact ⟨Nat.zero_le _, hb _ rfl⟩
  | some i =>
    cases b with
    | none =>
      cases policy with
      | empty => cases h
      | clampToStart =>
        cases h
        exact ⟨Nat.zero_le _, ha _ rfl⟩
    | some j =>
      have hi := ha i rfl
      have hj := hb j rfl
      cases h
      omega

theorem slice_eq_append (hij : i ≤ j) (hjk : j ≤ k) (hk : k < rows.length) :
    (rows.take (k + 1)).drop i =
      (rows.take j).drop i ++ rows[j] :: (rows.take (k + 1)).drop (j + 1) := by
  have hlength : j < (rows.take (k + 1)).length := by
    rw [List.length_take]
    omega
  have htake : rows.take j = (rows.take (k + 1)).take j := by
    rw [List.take_take, Nat.min_eq_left (by omega)]
  have hparts : rows.take (k + 1) =
      rows.take j ++ rows[j] :: (rows.take (k + 1)).drop (j + 1) := by
    have hdrop := List.drop_eq_getElem_cons hlength
    rw [List.getElem_take] at hdrop
    rw [← hdrop, htake, List.take_append_drop]
  conv_lhs => rw [hparts]
  rw [List.drop_append_of_le_length]
  rw [List.length_take]
  omega

theorem between_of_le (h : i ≤ j) (rows : List EntryId) :
    between rows i j = (rows.take (j + 1)).drop i := by
  rw [between, Nat.max_eq_right h, Nat.min_eq_left h]

theorem joinedAt_between (hnodup : rows.Nodup) (hij : i ≤ j) (hjk : j ≤ k)
    (hk : k < rows.length) :
    JoinedAt rows[j] (between rows i j) (between rows j k) (between rows i k) := by
  have hwhole : between rows i k =
      (rows.take j).drop i ++ rows[j] :: (rows.take (k + 1)).drop (j + 1) := by
    rw [between_of_le (Nat.le_trans hij hjk), slice_eq_append hij hjk hk]
  have hupper : between rows i j = (rows.take j).drop i ++ [rows[j]] := by
    rw [between_of_le hij, slice_eq_append hij (Nat.le_refl j) (by omega), List.drop_take_self]
  have hlower : between rows j k = rows[j] :: (rows.take (k + 1)).drop (j + 1) := by
    rw [between_of_le hjk, slice_eq_append (Nat.le_refl j) hjk hk, List.drop_take_self,
      List.nil_append]
  refine ⟨⟨_, _, hupper, hlower, hwhole⟩, fun other hupper' hlower' => ?_⟩
  -- What stands above the row and what stands below it are different rows of `whole`.
  have hdistinct := nodup_between hnodup i k
  rw [hwhole, List.nodup_append] at hdistinct
  rw [hupper, List.mem_append, List.mem_singleton] at hupper'
  rw [hlower] at hlower'
  rcases hupper' with habove | heq
  · exact absurd rfl (hdistinct.2.2 other habove other hlower')
  · exact heq

structure RangeLaw (rows : List EntryId) (policy : MissingEndpoint) : Prop where
  /-- A range is never cut out beyond the rows. -/
  bounds : ∀ (a b : EntryId) (first last : Nat),
    rangeBounds? policy (rows.idxOf? a) (rows.idxOf? b) = some (first, last) →
      first ≤ last ∧ last < rows.length
  comm : ∀ a b : EntryId, rangeBetween rows a b policy = rangeBetween rows b a policy
  present : ∀ (a b : EntryId) (i j : Nat), FirstAt rows a i → FirstAt rows b j →
    StandsAt rows (rangeBetween rows a b policy) (min i j) (max i j)
  oneMissing : ∀ (a b : EntryId) (i : Nat), FirstAt rows a i ∧ b ∉ rows ∨ a ∉ rows ∧ FirstAt rows b i →
    (policy = .empty → rangeBetween rows a b policy = []) ∧
      (policy = .clampToStart → StandsAt rows (rangeBetween rows a b policy) 0 i)
  bothMissing : ∀ a b : EntryId, a ∉ rows → b ∉ rows → rangeBetween rows a b policy = []
  /-- The row of `b` is between those of `a` and `c`, whichever of the two comes first. -/
  joined : rows.Nodup → ∀ (a b c : EntryId) (i j k : Nat),
    rows[i]? = some a → rows[j]? = some b → rows[k]? = some c →
      (i ≤ j → j ≤ k → JoinedAt b (rangeBetween rows a b policy) (rangeBetween rows b c policy)
        (rangeBetween rows a c policy)) ∧
      (k ≤ j → j ≤ i → JoinedAt b (rangeBetween rows b c policy) (rangeBetween rows a b policy)
        (rangeBetween rows a c policy))

theorem standsAt_rangeBetween (ha : FirstAt rows a i) (hb : FirstAt rows b j)
    (policy : MissingEndpoint) :
    StandsAt rows (rangeBetween rows a b policy) (min i j) (max i j) := by
  rw [rangeBetween_of_firstAt ha hb]
  have hi := ha.lt_length
  have hj := hb.lt_length
  exact standsAt_slice (by omega) (by omega)

theorem rangeBetween_of_missing (ha : FirstAt rows a i) (hb : b ∉ rows) :
    (policy = .empty → rangeBetween rows a b policy = []) ∧
      (policy = .clampToStart → StandsAt rows (rangeBetween rows a b policy) 0 i) := by
  rw [rangeBetween, firstAt_iff.1 ha, List.idxOf?_eq_none_iff.2 hb]
  constructor
  · rintro rfl
    rfl
  · rintro rfl
    exact standsAt_slice (Nat.zero_le i) ha.lt_length

theorem joinedAt_rangeBetween (hnodup : rows.Nodup) (ha : rows[i]? = some a)
    (hb : rows[j]? = some b) (hc : rows[k]? = some c) (hij : i ≤ j) (hjk : j ≤ k)
    (policy : MissingEndpoint) :
    JoinedAt b (rangeBetween rows a b policy) (rangeBetween rows b c policy)
      (rangeBetween rows a c policy) := by
  have ha' := firstAt_of_nodup hnodup ha
  have hb' := firstAt_of_nodup hnodup hb
  have hc' := firstAt_of_nodup hnodup hc
  rw [rangeBetween_of_firstAt ha' hb', rangeBetween_of_firstAt hb' hc',
    rangeBetween_of_firstAt ha' hc']
  obtain ⟨hj, rfl⟩ := List.getElem?_eq_some_iff.1 hb
  exact joinedAt_between hnodup hij hjk hc'.lt_length

/-- A range is a run of the rows from the one of its ends to the other, from the first row when an
end is missing and the policy makes up for it, and nothing otherwise. Ranges that meet in a row make
up one range. -/
theorem range_law (rows : List EntryId) (policy : MissingEndpoint) : RangeLaw rows policy where
  bounds a b first last h := by
    have hlt {id : EntryId} : ∀ i ∈ rows.idxOf? id, i < rows.length :=
      fun i hi => (firstAt_iff.2 hi).lt_length
    exact rangeBounds?_lt hlt hlt h
  comm a b := rangeBetween_comm rows a b policy
  present _ _ _ _ ha hb := standsAt_rangeBetween ha hb policy
  oneMissing a b i h := by
    rcases h with ⟨ha, hb⟩ | ⟨ha, hb⟩
    · exact rangeBetween_of_missing ha hb
    · rw [rangeBetween_comm]
      exact rangeBetween_of_missing hb ha
  bothMissing a b ha hb := by
    rw [rangeBetween, List.idxOf?_eq_none_iff.2 ha, List.idxOf?_eq_none_iff.2 hb]
    rfl
  joined hnodup a b c i j k ha hb hc := by
    refine ⟨fun hij hjk => joinedAt_rangeBetween hnodup ha hb hc hij hjk policy, fun hkj hji => ?_⟩
    rw [rangeBetween_comm rows b c, rangeBetween_comm rows a b, rangeBetween_comm rows a c]
    exact joinedAt_rangeBetween hnodup hc hb ha hkj hji policy

/-- An id that stands in several rows counts where it stands first. -/
example : rangeBetween ["a", "b", "c", "b", "d"] "d" "b" .empty = ["b", "c", "b", "d"] := by decide

end Law

end TreeBrowser
