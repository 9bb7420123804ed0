import TreeBrowser.Json.Quoted

/-!
# Quoted text read back

Every character's written form gives one code unit, the character's own number. No character is
half of a pair of surrogates, so these units are the text again.
-/

namespace TreeBrowser.Json.Quoted

/-! ## Written characters -/

/-- A character is written as an escape of its own, as the number of a control character, or as it
is. -/
theorem escapeChar_cases (c : Char) :
    (∃ d, d ≠ 'u' ∧ shortEscape? d = some c.toNat ∧ escapeChar c = ['\\', d]) ∨
    (c < ' ' ∧ escapeChar c = escapeControl c) ∨
    (c ≠ '"' ∧ c ≠ '\\' ∧ ¬ c < ' ' ∧ escapeChar c = [c]) := by
  unfold escapeChar
  -- The seven characters that have an escape of their own.
  iterate 7
    split
    · rename_i hshort
      subst hshort
      exact Or.inl ⟨_, by decide, by decide, rfl⟩
  split
  · rename_i hcontrol
    exact Or.inr (Or.inl ⟨hcontrol, rfl⟩)
  · rename_i hquote hbackslash _ _ _ _ _ hcontrol
    exact Or.inr (Or.inr ⟨hquote, hbackslash, hcontrol, rfl⟩)

/-! ## Code units -/

theorem hexValue?_hexDigit (n : Nat) : hexValue? (hexDigit n) = some (n % 16) := by
  have hdigit : ∀ m : Fin 16, hexValue? (Nat.digitChar m) = some m.val := by decide
  exact hdigit ⟨n % 16, Nat.mod_lt _ (by omega)⟩

theorem hexUnit?_hexDigit {n : Nat} (h : n < 256) :
    hexUnit? '0' '0' (hexDigit (n / 16)) (hexDigit n) = some n := by
  have hzero : hexValue? '0' = some 0 := by decide
  have hvalue : ((0 * 16 + 0) * 16 + n / 16 % 16) * 16 + n % 16 = n := by omega
  simp only [hexUnit?, hzero, hexValue?_hexDigit, Option.bind_eq_bind, Option.bind_some, hvalue]
  rfl

theorem units?_escapeChar (c : Char) (rest : List Char) :
    units? (escapeChar c ++ rest) = (units? rest).map (c.toNat :: ·) := by
  obtain ⟨d, hd, hunit, hescape⟩ | ⟨hcontrol, hescape⟩ | ⟨-, hbackslash, -, hescape⟩ :=
    escapeChar_cases c
  · rw [hescape, List.cons_append, List.cons_append, List.nil_append, units?, hunit]
    · cases units? rest <;> rfl
    · -- Only the escape of a number takes what follows it along.
      exact fun _ _ _ _ _ hu _ => hd hu
  · have hsmall : c.toNat < 256 := Nat.lt_trans hcontrol (by decide)
    have hunit := hexUnit?_hexDigit hsmall
    simp only [hescape, escapeControl, List.cons_append, List.nil_append, units?, hunit]
    cases units? rest <;> rfl
  · simp [hescape, units?, hbackslash]

theorem units?_flatMap_escapeChar (cs : List Char) :
    units? (cs.flatMap escapeChar) = some (cs.map Char.toNat) := by
  induction cs with
  | nil => rfl
  | cons c rest ih =>
    rw [List.flatMap_cons, units?_escapeChar, ih]
    rfl

/-! ## Characters of units -/

theorem not_surrogate (c : Char) : isLeading c.toNat = false ∧ isTrailing c.toNat = false := by
  have hvalid : c.toNat < 0xD800 ∨ (0xDFFF < c.toNat ∧ c.toNat < 0x110000) := c.valid
  constructor
  · rw [isLeading, Bool.and_eq_false_iff, decide_eq_false_iff_not, decide_eq_false_iff_not]
    omega
  · rw [isTrailing, Bool.and_eq_false_iff, decide_eq_false_iff_not, decide_eq_false_iff_not]
    omega

theorem ofUnits?_toNat_cons (c : Char) (units : List Nat) :
    ofUnits? (c.toNat :: units) = (ofUnits? units).map (c :: ·) := by
  obtain ⟨hleading, htrailing⟩ := not_surrogate c
  cases units with
  | nil => simp [ofUnits?, hleading, htrailing]
  | cons next rest => simp [ofUnits?, hleading, htrailing]

theorem ofUnits?_map_toNat (cs : List Char) : ofUnits? (cs.map Char.toNat) = some cs := by
  induction cs with
  | nil => rfl
  | cons c rest ih =>
    rw [List.map_cons, ofUnits?_toNat_cons, ih]
    rfl

theorem decode?_escaped (text : String) :
    decode? (text.toList.flatMap escapeChar) = some (some text) := by
  rw [decode?, units?_flatMap_escapeChar, Option.map_some, ofUnits?_map_toNat, Option.map_some,
    String.ofList_toList]

end TreeBrowser.Json.Quoted
