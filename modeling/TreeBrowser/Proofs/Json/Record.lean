import TreeBrowser.Json.Record

/-!
# Fields of records

What is found under a key, said by the members, and when a field is read. A key is found once
exactly when one member has it; what is found is a part of the record and no deeper than that.
-/

namespace TreeBrowser.Json

variable {α β γ : Type} {key other : String}

/-! ## What is found -/

theorem find_eq_missing_iff {members : List (String × β)} :
    find key members = .missing ↔ members.filter (·.1 == key) = [] := by
  rw [find]
  generalize members.filter (·.1 == key) = held
  rcases held with - | ⟨first, - | ⟨second, rest⟩⟩ <;> simp

@[simp]
theorem find_nil : find key ([] : List (String × β)) = .missing := by
  simp [find]

@[simp]
theorem find_cons_of_ne (h : other ≠ key) (v : β) (rest : List (String × β)) :
    find key ((other, v) :: rest) = find key rest := by
  simp [find, h]

@[simp]
theorem find_cons_self (v : β) {rest : List (String × β)} (h : find key rest = .missing) :
    find key ((key, v) :: rest) = .once v := by
  simp [find, find_eq_missing_iff.1 h]

@[simp]
theorem find_append_of_missing {before : List (String × β)} (h : find key before = .missing)
    (after : List (String × β)) : find key (before ++ after) = find key after := by
  rw [find, find, List.filter_append, find_eq_missing_iff.1 h, List.nil_append]

@[simp]
theorem find_append_of_missing_after {after : List (String × β)} (h : find key after = .missing)
    (before : List (String × β)) : find key (before ++ after) = find key before := by
  rw [find, find, List.filter_append, find_eq_missing_iff.1 h, List.append_nil]

@[simp]
theorem find_append_eq_missing_iff {before after : List (String × β)} :
    find key (before ++ after) = .missing ↔ find key before = .missing ∧ find key after = .missing := by
  rw [find_eq_missing_iff, List.filter_append, List.append_eq_nil_iff,
    find_eq_missing_iff, find_eq_missing_iff]

theorem mem_of_find_eq_once {members : List (String × β)} {v : β}
    (h : find key members = .once v) : (key, v) ∈ members := by
  unfold find at h
  split at h
  · cases h
  · rename_i first v' hfilter
    cases h
    have hheld : (first, v) ∈ members.filter (·.1 == key) := by
      rw [hfilter]
      exact List.mem_singleton_self _
    obtain ⟨hmem, hkey⟩ := List.mem_filter.1 hheld
    obtain rfl : first = key := beq_iff_eq.1 hkey
    exact hmem
  · cases h

def Found.map (f : β → γ) : Found β → Found γ
  | .missing => .missing
  | .once v => .once (f v)
  | .repeated => .repeated

theorem find_map (f : β → γ) (members : List (String × β)) :
    find key (members.map fun m => (m.1, f m.2)) = (find key members).map f := by
  have hfilter : (members.map fun m => (m.1, f m.2)).filter (·.1 == key) =
      (members.filter (·.1 == key)).map fun m => (m.1, f m.2) := by
    rw [List.filter_map]
    rfl
  rw [find, find, hfilter]
  generalize members.filter (·.1 == key) = held
  rcases held with - | ⟨first, - | ⟨second, rest⟩⟩ <;> rfl

/-! ## Optional members -/

@[simp]
theorem find_optionalMember_self (v : Option Json) :
    find key (optionalMember key v) = v.elim .missing .once := by
  cases v with
  | none => rfl
  | some v => exact find_cons_self v find_nil

@[simp]
theorem find_optionalMember_of_ne (h : other ≠ key) (v : Option Json) :
    find key (optionalMember other v) = .missing := by
  cases v with
  | none => rfl
  | some v => rw [optionalMember, find_cons_of_ne h, find_nil]

@[simp]
theorem find_optionalMember_eq_missing_iff (v : Option Json) :
    find key (optionalMember other v) = .missing ↔ other = key → v = none := by
  by_cases h : other = key
  · subst h
    cases v <;> simp
  · simp [h]

/-! ## When a field is read -/

theorem str?_eq_some_iff {v : Json} {text : String} : str? v = some text ↔ v = .str text := by
  cases v <;> simp [str?]

namespace Found

theorem required_eq_some_iff {fits : β → Option α} {found : Found β} {a : α} :
    found.required fits = some a ↔ ∃ v, found = .once v ∧ fits v = some a := by
  cases found <;> simp [required]

theorem required_map (fits : γ → Option α) (f : β → γ) (found : Found β) :
    (found.map f).required fits = found.required fun v => fits (f v) := by
  cases found <;> rfl

theorem defaulted_eq_some_iff {fits : β → Option α} {found : Found β} {value a : α} :
    found.defaulted value fits = some a ↔
      (found = .missing ∧ a = value) ∨ ∃ v, found = .once v ∧ fits v = some a := by
  cases found <;> simp [defaulted, eq_comm]

theorem optional_once {fits : Json → Option α} {v : Json} (h : v ≠ .null) :
    (Found.once v).optional fits = (fits v).map some := by
  cases v <;> first | rfl | exact absurd rfl h

end Found

end TreeBrowser.Json
