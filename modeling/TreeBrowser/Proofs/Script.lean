import TreeBrowser.Proofs.Text.Words
import TreeBrowser.Script

/-!
# What a line of a script can ask for

Each way to take arguments from the words after a command, inverted; then lines as a whole. Blank
lines and comments ask for nothing, no line asks for another workspace, and what is said of a line
that is no action fits on one line itself.
-/

namespace TreeBrowser

namespace Script

variable {action : Action} {words : List String} {what : String}

/-! ## The actions -/

theorem withNone_eq_ok_iff {a : Action} :
    withNone a words = .ok action ↔ words = [] ∧ action = a := by
  cases words with
  | nil => simp [withNone, eq_comm]
  | cons word rest => simp [withNone]

theorem withOne_eq_ok_iff {f : String → Action} :
    withOne what f words = .ok action ↔ ∃ x, words = [x] ∧ action = f x := by
  cases words with
  | nil => simp [withOne]
  | cons word rest => simp [withOne, withNone_eq_ok_iff]

theorem withTwo_eq_ok_iff {second : String} {f : String → String → Action} :
    withTwo what second f words = .ok action ↔ ∃ x y, words = [x, y] ∧ action = f x y := by
  cases words with
  | nil => simp [withTwo]
  | cons word rest => simp [withTwo, withOne_eq_ok_iff]

theorem withPhrase_eq_ok_iff {f : String → Action} :
    withPhrase what f words = .ok action ↔ words ≠ [] ∧ action = f (Text.spaced words) := by
  cases words with
  | nil => simp [withPhrase]
  | cons word rest => simp [withPhrase, eq_comm]

theorem withModifier_eq_ok_iff {f : Modifiers → Action} :
    withModifier f words = .ok action ↔
      words = [] ∧ action = f .none ∨ words = ["meta"] ∧ action = f .onlyMeta ∨
        words = ["shift"] ∧ action = f .onlyShift := by
  cases words with
  | nil => simp [withModifier, eq_comm]
  | cons word rest =>
    rw [withModifier]
    split
    · rename_i hword
      simp [withNone_eq_ok_iff, hword]
    · split
      · rename_i hword
        simp [withNone_eq_ok_iff, hword]
      · rename_i hmeta hshift
        simp [hmeta, hshift]

theorem action_ne_replaceWorkspace {command : Command}
    (h : Script.action words command = .ok action) (workspace : Workspace) :
    action ≠ .replaceWorkspace workspace := by
  rintro rfl
  cases command <;>
    simp [Script.action, withNone_eq_ok_iff, withOne_eq_ok_iff, withTwo_eq_ok_iff,
      withPhrase_eq_ok_iff, withModifier_eq_ok_iff] at h

/-! ## The errors -/

section

variable {error : ScriptError}

theorem oneLine_missingArgument (hwhat : Text.OneLine what) :
    Text.OneLine (ScriptError.missingArgument what).message :=
  Text.oneLine_append.2 ⟨by decide, hwhat⟩

theorem oneLine_trailingInput {rest : String} (hrest : Text.OneLine rest) :
    Text.OneLine (ScriptError.trailingInput rest).message :=
  Text.oneLine_append.2 ⟨by decide, hrest⟩

theorem oneLine_of_withPhrase_error {f : String → Action} (hwhat : Text.OneLine what)
    (h : withPhrase what f words = .error error) : Text.OneLine error.message := by
  rw [withPhrase] at h
  split at h
  · cases h
    exact oneLine_missingArgument hwhat
  · cases h

variable (hwords : ∀ word ∈ words, Text.OneLine word)

include hwords

theorem oneLine_of_withNone_error {a : Action} (h : withNone a words = .error error) :
    Text.OneLine error.message := by
  cases words with
  | nil => cases h
  | cons word rest =>
    cases h
    exact oneLine_trailingInput (Text.oneLine_spaced hwords)

theorem oneLine_of_withOne_error {f : String → Action} (hwhat : Text.OneLine what)
    (h : withOne what f words = .error error) : Text.OneLine error.message := by
  cases words with
  | nil =>
    cases h
    exact oneLine_missingArgument hwhat
  | cons word rest => exact oneLine_of_withNone_error (List.forall_mem_cons.1 hwords).2 h

theorem oneLine_of_withTwo_error {second : String} {f : String → String → Action}
    (hwhat : Text.OneLine what) (hsecond : Text.OneLine second)
    (h : withTwo what second f words = .error error) : Text.OneLine error.message := by
  cases words with
  | nil =>
    cases h
    exact oneLine_missingArgument hwhat
  | cons word rest => exact oneLine_of_withOne_error (List.forall_mem_cons.1 hwords).2 hsecond h

theorem oneLine_of_withModifier_error {f : Modifiers → Action}
    (h : withModifier f words = .error error) : Text.OneLine error.message := by
  cases words with
  | nil => cases h
  | cons word rest =>
    obtain ⟨hword, hrest⟩ := List.forall_mem_cons.1 hwords
    rw [withModifier] at h
    split at h
    · exact oneLine_of_withNone_error hrest h
    · split at h
      · exact oneLine_of_withNone_error hrest h
      · cases h
        exact oneLine_trailingInput hword

theorem oneLine_of_action_error {command : Command}
    (h : Script.action words command = .error error) : Text.OneLine error.message := by
  cases command with
  | click | metaClick | shiftClick | expand | collapse | toggle | activate | rename | remove =>
    exact oneLine_of_withOne_error hwords (by decide) h
  | up | down => exact oneLine_of_withModifier_error hwords h
  | clear | tick => exact oneLine_of_withNone_error hwords h
  | sort | folder => exact oneLine_of_withPhrase_error (by decide) h
  | drop => exact oneLine_of_withTwo_error hwords (by decide) (by decide) h
  | name => cases h

end

/-! ## Lines -/

variable {line : String}

theorem parseLine_eq_ok_some_iff :
    parseLine line = .ok (some action) ↔
      ∃ word rest command, Text.words line = word :: rest ∧ word.toList.head? ≠ some '#' ∧
        Command.ofWord? (Text.lowerAscii word) = some command ∧
        Script.action rest command = .ok action := by
  rw [parseLine]
  cases Text.words line with
  | nil => simp [ofWords]
  | cons word rest =>
    rw [ofWords]
    split
    · rename_i hcomment
      simp [hcomment]
    · rename_i hcomment
      cases hcommand : Command.ofWord? (Text.lowerAscii word) with
      | none => simp [hcommand]
      | some command =>
        cases haction : Script.action rest command <;>
          simp [hcomment, hcommand, haction, Except.map]

/-- A line asks for nothing exactly when it is blank or a comment. -/
theorem parseLine_eq_ok_none_iff :
    parseLine line = .ok none ↔
      Text.trim line = "" ∨ (Text.trim line).toList.head? = some '#' := by
  rw [← Text.words_eq_nil_iff, ← Text.head?_words, parseLine]
  cases Text.words line with
  | nil => simp [ofWords]
  | cons word rest =>
    rw [ofWords]
    split
    · rename_i hcomment
      simp [hcomment]
    · rename_i hcomment
      cases hcommand : Command.ofWord? (Text.lowerAscii word) with
      | none => simp [hcomment]
      | some command =>
        cases haction : Script.action rest command <;> simp [hcomment, haction, Except.map]

theorem parseLine_ne_replaceWorkspace (h : parseLine line = .ok (some action))
    (workspace : Workspace) : action ≠ .replaceWorkspace workspace := by
  obtain ⟨word, rest, command, -, -, -, haction⟩ := parseLine_eq_ok_some_iff.1 h
  exact action_ne_replaceWorkspace haction workspace

theorem oneLine_of_parseLine_error {error : ScriptError} (h : parseLine line = .error error) :
    Text.OneLine error.message := by
  have hwords : ∀ word ∈ Text.words line, Text.OneLine word := fun _ => Text.oneLine_of_mem_words
  rw [parseLine] at h
  cases hline : Text.words line with
  | nil =>
    rw [hline] at h
    cases h
  | cons word rest =>
    rw [hline, ofWords] at h
    rw [hline, List.forall_mem_cons] at hwords
    split at h
    · cases h
    · cases hcommand : Command.ofWord? (Text.lowerAscii word) with
      | none =>
        simp only [hcommand] at h
        cases h
        exact Text.oneLine_append.2 ⟨by decide, Text.oneLine_lowerAscii hwords.1⟩
      | some command =>
        simp only [hcommand] at h
        cases haction : Script.action rest command with
        | error e =>
          rw [haction] at h
          cases h
          exact oneLine_of_action_error hwords.2 haction
        | ok action =>
          rw [haction] at h
          cases h

end Script

end TreeBrowser
