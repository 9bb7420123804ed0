import TreeBrowser.Proofs.Text.Blank

/-!
# Words

The words of a text are not empty and hold no blank, and the first of them begins where the text
begins once it is trimmed. Words, and what is put together from them, stay on one line.
-/

namespace TreeBrowser.Text

variable {p : Char → Bool} {piece word cs : List Char} {pieces : List (List Char)}

/-! ## The pieces of a text -/

theorem mem_closePiece :
    word ∈ closePiece piece pieces ↔ word = piece ∧ word ≠ [] ∨ word ∈ pieces := by
  unfold closePiece
  cases piece with
  | nil => simp
  | cons c rest =>
    simp only [List.isEmpty_cons, Bool.false_eq_true, if_false, List.mem_cons]
    constructor
    · rintro (rfl | h)
      · exact Or.inl ⟨rfl, List.cons_ne_nil _ _⟩
      · exact Or.inr h
    · rintro (⟨rfl, -⟩ | h)
      · exact Or.inl rfl
      · exact Or.inr h

theorem head?_closePiece :
    (closePiece piece pieces).head?.bind List.head? =
      piece.head?.or (pieces.head?.bind List.head?) := by
  cases piece <;> rfl

theorem mem_piecesAfter (hpiece : ∀ c ∈ piece, p c = false) (h : word ∈ piecesAfter p piece cs) :
    word ≠ [] ∧ ∀ c ∈ word, p c = false := by
  have hclosed : word = piece.reverse ∧ word ≠ [] → word ≠ [] ∧ ∀ c ∈ word, p c = false := by
    rintro ⟨rfl, hne⟩
    exact ⟨hne, fun c hc => hpiece c (List.mem_reverse.1 hc)⟩
  induction cs generalizing piece with
  | nil =>
    rw [piecesAfter, mem_closePiece] at h
    exact hclosed (h.resolve_right List.not_mem_nil)
  | cons c cs ih =>
    rw [piecesAfter] at h
    split at h
    · rcases mem_closePiece.1 h with h | h
      · exact hclosed h
      · exact ih (fun _ hc => absurd hc List.not_mem_nil) h (by simp)
    · rename_i hc
      have hlonger : ∀ d ∈ c :: piece, p d = false :=
        List.forall_mem_cons.2 ⟨Bool.eq_false_iff.2 hc, hpiece⟩
      refine ih hlonger h ?_
      rintro ⟨rfl, hne⟩
      exact ⟨hne, fun d hd => hlonger d (List.mem_reverse.1 hd)⟩

/-- The first piece begins with what was held of it, or else with the first character that is no
separator. -/
theorem head?_piecesAfter :
    (piecesAfter p piece cs).head?.bind List.head? =
      piece.reverse.head?.or (cs.dropWhile p).head? := by
  induction cs generalizing piece with
  | nil =>
    rw [piecesAfter, head?_closePiece]
    rfl
  | cons c cs ih =>
    rw [piecesAfter]
    split
    · rename_i hc
      rw [head?_closePiece, ih, List.dropWhile_cons_of_pos hc]
      rfl
    · rename_i hc
      rw [ih, List.dropWhile_cons_of_neg hc, List.reverse_cons, List.head?_append]
      cases piece.reverse.head? <;> rfl

/-! ## The words of a text -/

theorem of_mem_words {word text : String} (h : word ∈ words text) :
    word.toList ≠ [] ∧ ∀ c ∈ word.toList, isBlank c = false := by
  obtain ⟨piece, hpiece, rfl⟩ := List.mem_map.1 h
  rw [String.toList_ofList]
  exact mem_piecesAfter (fun _ hc => absurd hc List.not_mem_nil) hpiece

theorem head?_trimChars (cs : List Char) : (trimChars cs).head? = (cs.dropWhile isBlank).head? := by
  rw [trimChars_eq]
  cases hdrop : cs.dropWhile isBlank with
  | nil => rfl
  | cons c rest =>
    have hc : ¬ isBlank c = true := by
      have hfirst := List.head?_dropWhile_not isBlank cs
      rw [hdrop] at hfirst
      exact Bool.eq_false_iff.1 hfirst
    obtain ⟨dropped, happend⟩ := List.rdropWhile_prefix isBlank (c :: rest)
    cases hkept : (c :: rest).rdropWhile isBlank with
    | nil => exact absurd (List.rdropWhile_eq_nil_iff.1 hkept c List.mem_cons_self) hc
    | cons d kept =>
      rw [hkept] at happend
      exact congrArg some (List.cons.inj happend).1

/-- The first word of a text begins as the text does once it is trimmed. -/
theorem head?_words (text : String) :
    (words text).head?.bind (·.toList.head?) = (trim text).toList.head? := by
  rw [trim, String.toList_ofList, head?_trimChars, words, pieces, List.head?_map,
    Option.bind_map]
  simp only [Function.comp_def, String.toList_ofList]
  rw [head?_piecesAfter]
  rfl

theorem words_eq_nil_iff {text : String} : words text = [] ↔ trim text = "" := by
  have hhead := head?_words text
  cases hwords : words text with
  | nil =>
    rw [hwords] at hhead
    exact iff_of_true rfl (String.toList_eq_nil_iff.1 (List.head?_eq_none_iff.1 hhead.symm))
  | cons word rest =>
    refine iff_of_false (List.cons_ne_nil _ _) fun htrim => ?_
    rw [hwords, htrim] at hhead
    have hword := (of_mem_words (hwords ▸ List.mem_cons_self)).1
    exact hword (List.head?_eq_none_iff.1 hhead)

/-! ## Texts on one line -/

def OneLine (text : String) : Prop :=
  '\n' ∉ text.toList

instance (text : String) : Decidable (OneLine text) :=
  inferInstanceAs (Decidable ('\n' ∉ text.toList))

theorem oneLine_append {first second : String} :
    OneLine (first ++ second) ↔ OneLine first ∧ OneLine second := by
  rw [OneLine, String.toList_append, List.mem_append, not_or]
  rfl

theorem oneLine_of_mem_words {word text : String} (h : word ∈ words text) : OneLine word := by
  intro hbreak
  have hblank := (of_mem_words h).2 '\n' hbreak
  revert hblank
  decide

theorem spaced_cons_cons (text next : String) (rest : List String) :
    spaced (text :: next :: rest) = text ++ " " ++ spaced (next :: rest) := by
  apply String.toList_injective
  simp [spaced, String.toList_intercalate]

theorem oneLine_spaced {texts : List String} (h : ∀ text ∈ texts, OneLine text) :
    OneLine (spaced texts) := by
  induction texts with
  | nil => exact List.not_mem_nil
  | cons text rest ih =>
    rw [List.forall_mem_cons] at h
    cases rest with
    | nil => simpa [spaced] using h.1
    | cons next rest =>
      rw [spaced_cons_cons, oneLine_append, oneLine_append]
      exact ⟨⟨h.1, by decide⟩, ih h.2⟩

theorem eq_of_toLower_eq {c d : Char} (hd : d.val < 97) (h : c.toLower = d) : c = d := by
  unfold Char.toLower at h
  split at h
  · rename_i hupper
    -- The sum would have to overflow, and a capital letter is too small for that.
    have hge : 65 ≤ c.val := hupper.1
    have hle : c.val ≤ 90 := hupper.2
    have hval : c.val + 32 = d.val := congrArg Char.val h
    grind
  · exact h

theorem oneLine_lowerAscii {text : String} (h : OneLine text) : OneLine (lowerAscii text) := by
  rw [OneLine, lowerAscii, String.toList_ofList, List.mem_map]
  rintro ⟨c, hc, hlower⟩
  exact h (eq_of_toLower_eq (by decide) hlower ▸ hc)

theorem oneLine_toString (n : Nat) : OneLine (toString n) := by
  rw [OneLine, Nat.toString_eq_repr, Nat.toList_repr]
  intro hbreak
  have hdigit := Nat.isDigit_of_mem_toDigits (by decide) (le_refl 10) hbreak
  revert hdigit
  decide

end TreeBrowser.Text
