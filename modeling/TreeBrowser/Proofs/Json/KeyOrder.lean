import TreeBrowser.Proofs.Json.Wire

/-!
# The order of keys

A value is reordered when the members of its objects, at any depth, come in another order; the
elements of arrays stay in their places. Fields are found wherever they stand, so a reader that is
put together from fields reads a reordered value as it reads the value. No key has to be unique for
that, since a key that is repeated is so in every order.
-/

namespace TreeBrowser.Json

variable {α β : Type} {key : String} {v v' : Json} {elems elems' : List Json}
  {members members' between : List (String × Json)}

mutual

/-- The values are the same but for the order of the members of objects, at every depth. -/
inductive Reordered : Json → Json → Prop
  | refl (v : Json) : Reordered v v
  | arr {elems elems' : List Json} :
    ReorderedElems elems elems' → Reordered (.arr elems) (.arr elems')
  | obj {members between members' : List (String × Json)} :
    ReorderedMembers members between → between.Perm members' →
      Reordered (.obj members) (.obj members')

inductive ReorderedElems : List Json → List Json → Prop
  | nil : ReorderedElems [] []
  | cons {v v' : Json} {rest rest' : List Json} :
    Reordered v v' → ReorderedElems rest rest' → ReorderedElems (v :: rest) (v' :: rest')

inductive ReorderedMembers : List (String × Json) → List (String × Json) → Prop
  | nil : ReorderedMembers [] []
  | cons {key : String} {v v' : Json} {rest rest' : List (String × Json)} :
    Reordered v v' → ReorderedMembers rest rest' →
      ReorderedMembers ((key, v) :: rest) ((key, v') :: rest')

end

theorem ReorderedMembers.refl : ∀ members, ReorderedMembers members members
  | [] => .nil
  | (_, v) :: rest => .cons (.refl v) (refl rest)

theorem ReorderedElems.length_eq : ∀ {elems elems' : List Json},
    ReorderedElems elems elems' → elems.length = elems'.length
  | _, _, .nil => rfl
  | _, _, .cons _ hrest => congrArg (· + 1) hrest.length_eq

/-! ## An order for every value -/

mutual

def backwards : Json → Json
  | .arr elems => .arr (backwardsElems elems)
  | .obj members => .obj (backwardsMembers members).reverse
  | v => v

def backwardsElems : List Json → List Json
  | [] => []
  | v :: rest => v.backwards :: backwardsElems rest

def backwardsMembers : List (String × Json) → List (String × Json)
  | [] => []
  | (key, v) :: rest => (key, v.backwards) :: backwardsMembers rest

end

mutual

theorem reordered_backwards (v : Json) : v.Reordered v.backwards := by
  cases v with
  | arr elems => exact .arr (reorderedElems_backwards elems)
  | obj members => exact .obj (reorderedMembers_backwards members) (List.reverse_perm _).symm
  | _ => exact .refl _

theorem reorderedElems_backwards (elems : List Json) :
    ReorderedElems elems (backwardsElems elems) := by
  cases elems with
  | nil => exact .nil
  | cons v rest => exact .cons (reordered_backwards v) (reorderedElems_backwards rest)

theorem reorderedMembers_backwards (members : List (String × Json)) :
    ReorderedMembers members (backwardsMembers members) := by
  cases members with
  | nil => exact .nil
  | cons m rest => exact .cons (reordered_backwards m.2) (reorderedMembers_backwards rest)

end

mutual

theorem exact_backwards (v : Json) (h : v.Exact) : v.backwards.Exact := by
  cases v with
  | arr elems => exact exactElems_backwards elems h
  | obj members =>
    have hmembers := exactMembers_iff.1 (exactMembers_backwards members h)
    exact exactMembers_iff.2 fun m hm => hmembers m (List.mem_reverse.1 hm)
  | _ => exact h

theorem exactElems_backwards (elems : List Json) (h : ExactElems elems) :
    ExactElems (backwardsElems elems) := by
  cases elems with
  | nil => exact trivial
  | cons v rest => exact ⟨exact_backwards v h.1, exactElems_backwards rest h.2⟩

theorem exactMembers_backwards (members : List (String × Json)) (h : ExactMembers members) :
    ExactMembers (backwardsMembers members) := by
  cases members with
  | nil => exact trivial
  | cons m rest => exact ⟨exact_backwards m.2 h.1, exactMembers_backwards rest h.2⟩

end

/-! ## Limits -/

theorem clipMembers_eq_map (limit : Nat) (members : List (String × Json)) :
    clipMembers limit members = members.map fun m => (m.1, m.2.clip limit) := by
  induction members with
  | nil => rfl
  | cons m rest ih => rw [clipMembers, ih, List.map_cons]

theorem readableMembers_eq_all (members : List (String × Json)) :
    readableMembers members = members.all fun m => m.2.readable := by
  induction members with
  | nil => rfl
  | cons m rest ih => rw [readableMembers, ih, List.all_cons]

mutual

theorem Reordered.clip {v v' : Json} : Reordered v v' → ∀ limit,
    Reordered (v.clip limit) (v'.clip limit)
  | .refl _, _ => .refl _
  | .arr _, 0 => .refl _
  | .arr helems, limit + 1 => .arr (helems.clip limit)
  | .obj _ _, 0 => .refl _
  | .obj hmembers hperm, limit + 1 => by
    refine .obj (hmembers.clip limit) ?_
    rw [clipMembers_eq_map, clipMembers_eq_map]
    exact hperm.map _

theorem ReorderedElems.clip {elems elems' : List Json} : ReorderedElems elems elems' →
    ∀ limit, ReorderedElems (clipElems limit elems) (clipElems limit elems')
  | .nil, _ => .nil
  | .cons hv hrest, limit => .cons (hv.clip limit) (hrest.clip limit)

theorem ReorderedMembers.clip {members members' : List (String × Json)} :
    ReorderedMembers members members' →
    ∀ limit, ReorderedMembers (clipMembers limit members) (clipMembers limit members')
  | .nil, _ => .nil
  | .cons hv hrest, limit => .cons (hv.clip limit) (hrest.clip limit)

end

mutual

theorem Reordered.readable_eq {v v' : Json} : Reordered v v' → v.readable = v'.readable
  | .refl _ => rfl
  | .arr helems => helems.readable_eq
  | .obj hmembers hperm => by
    rw [readable, readable, hmembers.readable_eq, readableMembers_eq_all, readableMembers_eq_all]
    exact hperm.all_eq

theorem ReorderedElems.readable_eq {elems elems' : List Json} :
    ReorderedElems elems elems' → readableElems elems = readableElems elems'
  | .nil => rfl
  | .cons hv hrest => by rw [readableElems, readableElems, hv.readable_eq, hrest.readable_eq]

theorem ReorderedMembers.readable_eq {members members' : List (String × Json)} :
    ReorderedMembers members members' → readableMembers members = readableMembers members'
  | .nil => rfl
  | .cons hv hrest => by rw [readableMembers, readableMembers, hv.readable_eq, hrest.readable_eq]

end

/-! ## Fields -/

theorem find_perm {members members' : List (String × β)} (h : members.Perm members') :
    find key members = find key members' := by
  have hheld := h.filter (·.1 == key)
  rw [find, find]
  generalize members.filter (·.1 == key) = held at hheld
  generalize members'.filter (·.1 == key) = held' at hheld
  rcases held with - | ⟨first, - | ⟨second, rest⟩⟩
  · rw [List.nil_perm.1 hheld]
  · rw [List.singleton_perm.1 hheld]
  · obtain ⟨first', second', rest', rfl⟩ : ∃ first' second' rest',
        held' = first' :: second' :: rest' := by
      have hlength := hheld.length_eq
      rcases held' with - | ⟨first', - | ⟨second', rest'⟩⟩
      · cases hlength
      · cases hlength
      · exact ⟨first', second', rest', rfl⟩
    rfl

inductive Found.Reordered : Found Json → Found Json → Prop
  | missing : Reordered .missing .missing
  | once {v v' : Json} : v.Reordered v' → Reordered (.once v) (.once v')
  | repeated : Reordered .repeated .repeated

def Agree (members members' : List (String × Json)) : Prop :=
  ∀ key, (find key members).Reordered (find key members')

theorem find_cons_self_of_found (v : β) {rest : List (String × β)} (h : find key rest ≠ .missing) :
    find key ((key, v) :: rest) = .repeated := by
  rw [ne_eq, find_eq_missing_iff] at h
  rw [find, List.filter_cons_of_pos (by simp)]
  cases hheld : rest.filter (·.1 == key) with
  | nil => exact absurd hheld h
  | cons first rest => rfl

theorem ReorderedMembers.agree : ∀ {members members' : List (String × Json)},
    ReorderedMembers members members' → Agree members members'
  | _, _, .nil, key => by
    rw [find_nil]
    exact .missing
  | _, _, @ReorderedMembers.cons other v v' rest rest' hv hrest, key => by
    have hfound := hrest.agree key
    by_cases hkey : other = key
    · subst hkey
      generalize hf : find other rest = found at hfound
      generalize hf' : find other rest' = found' at hfound
      cases hfound with
      | missing =>
        rw [find_cons_self v hf, find_cons_self v' hf']
        exact .once hv
      | once | repeated =>
        rw [find_cons_self_of_found v (by simp [hf]), find_cons_self_of_found v' (by simp [hf'])]
        exact .repeated
    · rw [find_cons_of_ne hkey, find_cons_of_ne hkey]
      exact hfound

theorem Agree.of_reorderedMembers_perm (h : ReorderedMembers members between)
    (hperm : between.Perm members') : Agree members members' := by
  intro key
  rw [← find_perm hperm]
  exact h.agree key

theorem ReorderedElems.zip : ∀ {elems elems' : List Json}, ReorderedElems elems elems' →
    ∀ fields : List String, ReorderedMembers (fields.zip elems) (fields.zip elems')
  | _, _, .nil, fields => by
    rw [List.zip_nil_right]
    exact .nil
  | _, _, .cons _ _, [] => .nil
  | _, _, .cons hv hrest, _ :: fields => .cons hv (hrest.zip fields)

/-! ## Readers -/

/-- A reordered value is read as the value is. -/
def IgnoresKeyOrder (read : Json → α) : Prop :=
  ∀ ⦃v v' : Json⦄, v.Reordered v' → read v = read v'

theorem ReorderedMembers.all_eq {test : String × Json → Bool}
    (htest : ∀ key, IgnoresKeyOrder fun v => test (key, v)) :
    ∀ {members members' : List (String × Json)}, ReorderedMembers members members' →
      members.all test = members'.all test
  | _, _, .nil => rfl
  | _, _, @ReorderedMembers.cons key _ _ _ _ hv hrest => by
    have hfirst := htest key hv
    dsimp only at hfirst
    rw [List.all_cons, List.all_cons, hfirst, hrest.all_eq htest]

theorem ignoresKeyOrder_of_scalars {read : Json → Option α}
    (harr : ∀ elems, read (.arr elems) = none) (hobj : ∀ members, read (.obj members) = none) :
    IgnoresKeyOrder read := by
  intro v v' h
  cases h with
  | refl => rfl
  | arr => rw [harr, harr]
  | obj => rw [hobj, hobj]

theorem ignoresKeyOrder_str? : IgnoresKeyOrder str? :=
  ignoresKeyOrder_of_scalars (fun _ => rfl) fun _ => rfl

theorem ignoresKeyOrder_bool? : IgnoresKeyOrder bool? :=
  ignoresKeyOrder_of_scalars (fun _ => rfl) fun _ => rfl

theorem ignoresKeyOrder_uint32? : IgnoresKeyOrder uint32? :=
  ignoresKeyOrder_of_scalars (fun _ => rfl) fun _ => rfl

theorem ignoresKeyOrder_uint64? : IgnoresKeyOrder uint64? :=
  ignoresKeyOrder_of_scalars (fun _ => rfl) fun _ => rfl

theorem ReorderedElems.mapM_eq {fits : Json → Option α} (hfits : IgnoresKeyOrder fits) :
    ∀ {elems elems' : List Json}, ReorderedElems elems elems' → elems.mapM fits = elems'.mapM fits
  | _, _, .nil => rfl
  | _, _, .cons hv hrest => by
    rw [List.mapM_cons, List.mapM_cons, hfits hv, hrest.mapM_eq hfits]

theorem IgnoresKeyOrder.list? {fits : Json → Option α} (hfits : IgnoresKeyOrder fits) :
    IgnoresKeyOrder (list? fits) := by
  intro v v' h
  cases h with
  | refl => rfl
  | arr helems => exact helems.mapM_eq hfits
  | obj => rfl

theorem Reordered.eq_null_iff (h : v.Reordered v') : v = .null ↔ v' = .null := by
  cases h <;> simp

theorem caseName?_obj_eq_some_iff {name : String} :
    caseName? (.obj members) = some name ↔ members = [(name, .null)] := by
  constructor
  · intro h
    simp only [caseName?] at h
    split at h
    · rename_i heq
      cases heq
    · rename_i heq
      cases heq
      cases h
      rfl
    · cases h
  · rintro rfl
    rfl

theorem ReorderedMembers.eq_null_iff {name : String} (h : ReorderedMembers members members') :
    members = [(name, .null)] ↔ members' = [(name, .null)] := by
  rcases h with - | ⟨hv, hrest⟩
  · rfl
  · rcases hrest with - | ⟨-, -⟩
    · simp [hv.eq_null_iff]
    · simp

theorem ignoresKeyOrder_caseName? : IgnoresKeyOrder caseName? := by
  intro v v' h
  cases h with
  | refl => rfl
  | arr => rfl
  | @obj members between members' hmembers hperm =>
    refine Option.ext fun name => ?_
    rw [caseName?_obj_eq_some_iff, caseName?_obj_eq_some_iff, hmembers.eq_null_iff]
    constructor
    · rintro rfl
      exact (List.singleton_perm.1 hperm).symm
    · rintro rfl
      exact List.perm_singleton.1 hperm

theorem IgnoresKeyOrder.bind {read : Json → Option α} (h : IgnoresKeyOrder read)
    (f : α → Option β) : IgnoresKeyOrder fun v => (read v).bind f := by
  intro v v' hv
  dsimp only
  rw [h hv]

/-! ## Records -/

namespace Found.Reordered

variable {found found' : Found Json} {fits : Json → Option α}

theorem required (h : found.Reordered found') (hfits : IgnoresKeyOrder fits) :
    found.required fits = found'.required fits := by
  cases h with
  | missing | repeated => rfl
  | once hv => exact hfits hv

theorem defaulted (h : found.Reordered found') (hfits : IgnoresKeyOrder fits) (value : α) :
    found.defaulted value fits = found'.defaulted value fits := by
  cases h with
  | missing | repeated => rfl
  | once hv => exact hfits hv

theorem optional (h : found.Reordered found') (hfits : IgnoresKeyOrder fits) :
    found.optional fits = found'.optional fits := by
  cases h with
  | missing | repeated => rfl
  | @once v v' hv =>
    by_cases hnull : v = .null
    · rw [hnull, hv.eq_null_iff.1 hnull]
    · rw [optional_once hnull, optional_once (fun h => hnull (hv.eq_null_iff.2 h)), hfits hv]

end Found.Reordered

/-- A reader of members that depends only on what keys find in them, as a reader of records. -/
theorem ignoresKeyOrder_record? {read : List (String × Json) → Option α}
    (hread : ∀ {members members'}, Agree members members' → read members = read members')
    (fields : List String) : IgnoresKeyOrder fun v => (record? fields v).bind read := by
  intro v v' h
  cases h with
  | refl => rfl
  | arr helems =>
    simp only [record?, helems.length_eq]
    split
    · exact hread (helems.zip fields).agree
    · rfl
  | obj hmembers hperm => exact hread (Agree.of_reorderedMembers_perm hmembers hperm)

theorem ignoresKeyOrder_object? {read : List (String × Json) → Option α}
    (hread : ∀ {members members'}, Agree members members' → read members = read members') :
    IgnoresKeyOrder fun v => (object? v).bind read := by
  intro v v' h
  cases h with
  | refl => rfl
  | arr => rfl
  | obj hmembers hperm => exact hread (Agree.of_reorderedMembers_perm hmembers hperm)

/-! ## Documents -/

def ReorderedTexts (text text' : String) : Prop :=
  ∃ v v', ofText? text = some v ∧ ofText? text' = some v' ∧ v.Reordered v'

variable {read : Json → Option α} {text text' : String}

theorem IgnoresKeyOrder.ofDocument? (hread : IgnoresKeyOrder read) (h : ReorderedTexts text text') :
    (ofDocument? text).bind read = (ofDocument? text').bind read := by
  obtain ⟨v, v', hv, hv', hreordered⟩ := h
  rw [Json.ofDocument?, Json.ofDocument?, hv, hv']
  exact hread (hreordered.clip depthLimit)

theorem IgnoresKeyOrder.filter_ofDocument? {test : Json → Bool} (hread : IgnoresKeyOrder read)
    (htest : IgnoresKeyOrder test) (h : ReorderedTexts text text') :
    ((Json.ofDocument? text).filter test).bind read =
      ((Json.ofDocument? text').filter test).bind read := by
  obtain ⟨v, v', hv, hv', hreordered⟩ := h
  have hclip := hreordered.clip depthLimit
  rw [Json.ofDocument?, Json.ofDocument?, hv, hv', Option.map_some, Option.map_some,
    Option.filter_some, Option.filter_some, htest hclip]
  split
  · exact hread hclip
  · rfl

theorem ignoresKeyOrder_readable : IgnoresKeyOrder readable :=
  fun _ _ h => h.readable_eq

theorem IgnoresKeyOrder.ofWholeDocument? (hread : IgnoresKeyOrder read)
    (h : ReorderedTexts text text') :
    (Json.ofWholeDocument? text).bind read = (Json.ofWholeDocument? text').bind read :=
  hread.filter_ofDocument? ignoresKeyOrder_readable h

end TreeBrowser.Json
