import TreeBrowser.Proofs.Text.Words

/-!
# Splitting a text into words

A text with its words in it: each word is kept whole by blanks on either side of it. Every text can be
read in exactly one such way, and that is how its words are found.
-/

namespace TreeBrowser.Text

def IsWord (text : String) : Prop :=
  text.toList ≠ [] ∧ ∀ c ∈ text.toList, isBlank c = false

instance (text : String) : Decidable (IsWord text) :=
  -- The characters of the text are gone through, not all that there are.
  have : Decidable (∀ c ∈ text.toList, isBlank c = false) := List.decidableBAll _ _
  inferInstanceAs (Decidable (_ ∧ _))

/-- `Splits cs words`: the words stand in `cs` in this order, with blanks between them and perhaps
before the first and behind the last. -/
inductive Splits : List Char → List String → Prop
  | blanks {gap : List Char} : (∀ c ∈ gap, isBlank c = true) → Splits gap []
  | word {gap rest : List Char} {word : String} {words : List String} :
      (∀ c ∈ gap, isBlank c = true) → IsWord word → (∀ c ∈ rest.head?, isBlank c = true) →
        Splits rest words → Splits (gap ++ word.toList ++ rest) (word :: words)

/-! ## Pieces and separators -/

section

variable {p : Char → Bool} {piece cs : List Char}

theorem piecesAfter_separators {gap : List Char} (hgap : ∀ c ∈ gap, p c = true) :
    piecesAfter p [] (gap ++ cs) = piecesAfter p [] cs := by
  induction gap with
  | nil => rfl
  | cons c gap ih =>
    rw [List.forall_mem_cons] at hgap
    rw [List.cons_append, piecesAfter, if_pos hgap.1, ih hgap.2]
    rfl

theorem piecesAfter_append {longer : List Char} (hlonger : ∀ c ∈ longer, p c = false) :
    piecesAfter p piece (longer ++ cs) = piecesAfter p (longer.reverse ++ piece) cs := by
  induction longer generalizing piece with
  | nil => rfl
  | cons c longer ih =>
    rw [List.forall_mem_cons] at hlonger
    have hc : ¬ p c = true := Bool.eq_false_iff.1 hlonger.1
    rw [List.cons_append, piecesAfter, if_neg hc, ih hlonger.2, List.reverse_cons,
      List.append_assoc, List.singleton_append]

theorem piecesAfter_finished (hpiece : piece ≠ []) (hcs : ∀ c ∈ cs.head?, p c = true) :
    piecesAfter p piece cs = piece.reverse :: piecesAfter p [] cs := by
  have hclosed (pieces : List (List Char)) :
      closePiece piece.reverse pieces = piece.reverse :: pieces := by
    rw [closePiece, if_neg]
    simpa using hpiece
  cases cs with
  | nil => exact hclosed []
  | cons c cs =>
    have hc : p c = true := hcs c rfl
    rw [piecesAfter, piecesAfter, if_pos hc, if_pos hc, hclosed]
    rfl

end

/-! ## The one way to split a text -/

variable {cs : List Char} {text : String} {texts : List String}

theorem Splits.map_piecesAfter (h : Splits cs texts) :
    (piecesAfter isBlank [] cs).map String.ofList = texts := by
  induction h with
  | @blanks gap hgap =>
    rw [← List.append_nil gap, piecesAfter_separators hgap]
    rfl
  | @word gap rest word words hgap hword hrest _ ih =>
    have hpiece : word.toList.reverse ++ [] ≠ [] := by simpa using hword.1
    rw [List.append_assoc, piecesAfter_separators hgap, piecesAfter_append hword.2,
      piecesAfter_finished hpiece hrest, List.map_cons, ih, List.append_nil, List.reverse_reverse,
      String.ofList_toList]

theorem Splits.cons_word {word : String} (hword : IsWord word)
    (hcs : ∀ c ∈ cs.head?, isBlank c = true) (h : Splits cs texts) :
    Splits (word.toList ++ cs) (word :: texts) :=
  Splits.word (fun _ hc => absurd hc List.not_mem_nil) hword hcs h

theorem Splits.cons_blank (h : Splits cs texts) {c : Char} (hc : isBlank c = true) :
    Splits (c :: cs) texts := by
  have hlonger {gap : List Char} (hgap : ∀ d ∈ gap, isBlank d = true) :
      ∀ d ∈ c :: gap, isBlank d = true := List.forall_mem_cons.2 ⟨hc, hgap⟩
  cases h with
  | blanks hgap => exact Splits.blanks (hlonger hgap)
  | word hgap hword hrest hsplits => exact Splits.word (hlonger hgap) hword hrest hsplits

/-- A character before a text that splits: a blank is passed over, and any other character belongs
to the first word. -/
theorem Splits.exists_cons (h : Splits cs texts) (c : Char) : ∃ words, Splits (c :: cs) words := by
  by_cases hc : isBlank c = true
  · exact ⟨texts, h.cons_blank hc⟩
  · have hplain : isBlank c = false := Bool.eq_false_iff.2 hc
    -- The word that begins with `c` ends before a blank, or goes on with the first word.
    by_cases hnext : ∀ d ∈ cs.head?, isBlank d = true
    · have hword : IsWord (String.ofList [c]) := by
        rw [IsWord, String.toList_ofList]
        simpa using hplain
      have hfirst := Splits.cons_word hword hnext h
      rw [String.toList_ofList] at hfirst
      exact ⟨_, hfirst⟩
    · cases h with
      | @blanks _ hgap =>
        refine absurd (fun d hd => hgap d ?_) hnext
        exact List.mem_of_mem_head? hd
      | @word gap rest word words hgap hword hrest hsplits =>
        obtain rfl : gap = [] := by
          cases gap with
          | nil => rfl
          | cons d gap =>
            refine absurd (fun e he => ?_) hnext
            cases he
            exact hgap d List.mem_cons_self
        have hlonger : IsWord (String.ofList (c :: word.toList)) := by
          rw [IsWord, String.toList_ofList]
          exact ⟨List.cons_ne_nil _ _, List.forall_mem_cons.2 ⟨hplain, hword.2⟩⟩
        have hfirst := Splits.cons_word hlonger hrest hsplits
        rw [String.toList_ofList] at hfirst
        exact ⟨_, hfirst⟩

theorem exists_splits (cs : List Char) : ∃ words, Splits cs words := by
  induction cs with
  | nil => exact ⟨[], Splits.blanks (by simp)⟩
  | cons c cs ih =>
    obtain ⟨words, hsplits⟩ := ih
    exact hsplits.exists_cons c

theorem words_eq_iff : words text = texts ↔ Splits text.toList texts := by
  constructor
  · rintro rfl
    obtain ⟨found, hsplits⟩ := exists_splits text.toList
    rw [words, pieces, hsplits.map_piecesAfter]
    exact hsplits
  · exact fun h => h.map_piecesAfter

theorem Splits.isWord (h : Splits cs texts) : ∀ word ∈ texts, IsWord word := by
  induction h with
  | blanks => exact fun _ hword => absurd hword List.not_mem_nil
  | word _ hword _ _ ih => exact List.forall_mem_cons.2 ⟨hword, ih⟩

theorem words_spaced (h : ∀ word ∈ texts, IsWord word) : words (spaced texts) = texts := by
  rw [words_eq_iff]
  induction texts with
  | nil => exact Splits.blanks (by simp [spaced])
  | cons word rest ih =>
    rw [List.forall_mem_cons] at h
    cases rest with
    | nil =>
      have hlast : Splits (word.toList ++ []) [word] :=
        Splits.cons_word h.1 (by simp) (Splits.blanks (by simp))
      rwa [List.append_nil] at hlast
    | cons next rest =>
      have hspaced : (spaced (word :: next :: rest)).toList =
          word.toList ++ ' ' :: (spaced (next :: rest)).toList := by
        rw [spaced_cons_cons, String.toList_append, String.toList_append, List.append_assoc]
        rfl
      rw [hspaced]
      apply Splits.cons_word h.1
      · intro c hc
        cases hc
        rfl
      · exact (ih h.2).cons_blank rfl

end TreeBrowser.Text
