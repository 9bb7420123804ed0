import TreeBrowser.Proofs.Script
import TreeBrowser.Proofs.Text.Splitting

/-!
# The grammar of scripts

What each line of a script means, said by rules on its words: the lines that ask for nothing, the
phrases that ask for an action, and which error any other line is. Lines are read by these rules and
no others, so the actions that a script can ask for are known, and so is a line for each of them.
-/

namespace TreeBrowser

namespace Script

/-- The words of a line, the first of them with its ASCII letters in lower case. -/
def lowered : List String → List String
  | [] => []
  | word :: rest => Text.lowerAscii word :: rest

/-- What may follow a command: ids, which errors call by the given names; a word for the key that is
held; or any words, which make one text. A text that has a name here has to have a word. -/
inductive Form where
  | ids (names : List String)
  | key
  | text (name : Option String)
  deriving DecidableEq

def form? : String → Option Form
  | "click" => some (.ids ["entry id"])
  | "meta" => some (.ids ["entry id"])
  | "shift" => some (.ids ["entry id"])
  | "up" => some .key
  | "down" => some .key
  | "expand" => some (.ids ["entry id"])
  | "collapse" => some (.ids ["entry id"])
  | "toggle" => some (.ids ["entry id"])
  | "activate" => some (.ids ["entry id"])
  | "clear" => some (.ids [])
  | "sort" => some (.text (some "column"))
  | "drop" => some (.ids ["dragged entry id", "target folder id"])
  | "rename" => some (.ids ["entry id"])
  | "name" => some (.text none)
  | "folder" => some (.text (some "folder name"))
  | "remove" => some (.ids ["entry id"])
  | "tick" => some (.ids [])
  | _ => none

inductive HeldKey : List String → Modifiers → Prop
  | none : HeldKey [] .none
  | onlyMeta : HeldKey ["meta"] .onlyMeta
  | onlyShift : HeldKey ["shift"] .onlyShift

inductive Asks : String → List String → Action → Prop
  | click (id : EntryId) : Asks "click" [id] (.click id .none)
  | metaClick (id : EntryId) : Asks "meta" [id] (.click id .onlyMeta)
  | shiftClick (id : EntryId) : Asks "shift" [id] (.click id .onlyShift)
  | up {keys : List String} {modifiers : Modifiers} :
      HeldKey keys modifiers → Asks "up" keys (.focusAdjacent (-1) modifiers)
  | down {keys : List String} {modifiers : Modifiers} :
      HeldKey keys modifiers → Asks "down" keys (.focusAdjacent 1 modifiers)
  | expand (id : EntryId) : Asks "expand" [id] (.expand id)
  | collapse (id : EntryId) : Asks "collapse" [id] (.collapse id)
  | toggle (id : EntryId) : Asks "toggle" [id] (.toggleExpanded id)
  | activate (id : EntryId) : Asks "activate" [id] (.activate id)
  | clear : Asks "clear" [] .clearFocus
  | sort {words : List String} : words ≠ [] → Asks "sort" words (.sortBy (Text.spaced words))
  | drop (dragged target : EntryId) : Asks "drop" [dragged, target] (.drop dragged target)
  | rename (id : EntryId) : Asks "rename" [id] (.beginRename id)
  | name (words : List String) : Asks "name" words (.finishRename (Text.spaced words))
  | folder {words : List String} :
      words ≠ [] → Asks "folder" words (.createFolder (Text.spaced words))
  | remove (id : EntryId) : Asks "remove" [id] (.remove id)
  | tick : Asks "tick" [] .tick

/-- `Means words outcome`: what the words of a line mean, the first of them in lower case. -/
inductive Means : List String → Except ScriptError (Option Action) → Prop
  | blank : Means [] (.ok none)
  | comment {word : String} {rest : List String} :
      word.toList.head? = some '#' → Means (word :: rest) (.ok none)
  | action {word : String} {arguments : List String} {action : Action} :
      Asks word arguments action → Means (word :: arguments) (.ok (some action))
  | unknownCommand {word : String} {rest : List String} :
      word.toList.head? ≠ some '#' → form? word = none →
        Means (word :: rest) (.error (.unknownCommand word))
  | missingId {word what : String} {names arguments : List String} :
      form? word = some (.ids names) → names[arguments.length]? = some what →
        Means (word :: arguments) (.error (.missingArgument what))
  | missingText {word what : String} :
      form? word = some (.text (some what)) → Means [word] (.error (.missingArgument what))
  | trailingInput {word : String} {names arguments rest : List String} :
      form? word = some (.ids names) → arguments.length = names.length → rest ≠ [] →
        Means (word :: (arguments ++ rest)) (.error (.trailingInput (Text.spaced rest)))
  | wrongKey {word key : String} {rest : List String} :
      form? word = some .key → key ≠ "meta" → key ≠ "shift" →
        Means (word :: key :: rest) (.error (.trailingInput key))
  | trailingKey {word key : String} {rest : List String} :
      form? word = some .key → key = "meta" ∨ key = "shift" → rest ≠ [] →
        Means (word :: key :: rest) (.error (.trailingInput (Text.spaced rest)))

inductive Scriptable : Action → Prop
  | clearFocus : Scriptable .clearFocus
  | tick : Scriptable .tick
  | focusAdjacent {delta : Int} {modifiers : Modifiers} :
      delta = -1 ∨ delta = 1 → ¬ (modifiers.metaKey = true ∧ modifiers.shiftKey = true) →
        Scriptable (.focusAdjacent delta modifiers)
  | click {id : EntryId} {modifiers : Modifiers} :
      Text.IsWord id → ¬ (modifiers.metaKey = true ∧ modifiers.shiftKey = true) →
        Scriptable (.click id modifiers)
  | expand {id : EntryId} : Text.IsWord id → Scriptable (.expand id)
  | collapse {id : EntryId} : Text.IsWord id → Scriptable (.collapse id)
  | toggleExpanded {id : EntryId} : Text.IsWord id → Scriptable (.toggleExpanded id)
  | activate {id : EntryId} : Text.IsWord id → Scriptable (.activate id)
  | beginRename {id : EntryId} : Text.IsWord id → Scriptable (.beginRename id)
  | remove {id : EntryId} : Text.IsWord id → Scriptable (.remove id)
  | drop {dragged target : EntryId} :
      Text.IsWord dragged → Text.IsWord target → Scriptable (.drop dragged target)
  | sortBy {words : List String} :
      words ≠ [] → (∀ word ∈ words, Text.IsWord word) → Scriptable (.sortBy (Text.spaced words))
  | createFolder {words : List String} :
      words ≠ [] → (∀ word ∈ words, Text.IsWord word) →
        Scriptable (.createFolder (Text.spaced words))
  | finishRename {words : List String} :
      (∀ word ∈ words, Text.IsWord word) → Scriptable (.finishRename (Text.spaced words))

variable {word : String} {words arguments rest names : List String} {command : Command}
  {action : Action} {outcome : Except ScriptError (Option Action)}

/-! ## Commands and their forms -/

def Command.form : Command → Form
  | .click | .metaClick | .shiftClick | .expand | .collapse | .toggle | .activate | .rename
  | .remove => .ids ["entry id"]
  | .up | .down => .key
  | .clear | .tick => .ids []
  | .drop => .ids ["dragged entry id", "target folder id"]
  | .sort => .text (some "column")
  | .folder => .text (some "folder name")
  | .name => .text none

theorem Command.ofWord?_word (command : Command) : Command.ofWord? command.word = some command := by
  cases command <;> rfl

theorem Command.word_of_ofWord? (h : Command.ofWord? word = some command) : command.word = word := by
  have hfound := List.find?_some h
  simpa using hfound

theorem form?_word (command : Command) : form? command.word = some command.form := by
  cases command <;> rfl

theorem form?_eq_none (h : Command.ofWord? word = none) : form? word = none := by
  rw [Command.ofWord?, List.find?_eq_none] at h
  simp only [Command.all, List.forall_mem_cons, Command.word, beq_iff_eq] at h
  unfold form?
  split <;> first | rfl | simp_all

theorem exists_command {form : Form} (h : form? word = some form) :
    ∃ command, Command.ofWord? word = some command ∧ Command.form command = form := by
  cases hcommand : Command.ofWord? word with
  | none =>
    rw [form?_eq_none hcommand] at h
    cases h
  | some command =>
    refine ⟨command, rfl, ?_⟩
    rw [← Command.word_of_ofWord? hcommand, form?_word] at h
    exact Option.some.inj h

/-! ## Reading a line -/

theorem head?_lowerAscii (word : String) :
    (Text.lowerAscii word).toList.head? = some '#' ↔ word.toList.head? = some '#' := by
  rw [Text.lowerAscii, String.toList_ofList, List.head?_map, Option.map_eq_some_iff]
  constructor
  · rintro ⟨c, hc, hlower⟩
    rw [hc, Text.eq_of_toLower_eq (by decide) hlower]
  · exact fun h => ⟨'#', h, rfl⟩

theorem Command.head?_word (command : Command) : command.word.toList.head? ≠ some '#' := by
  cases command <;> decide

theorem ofWords_comment (h : word.toList.head? = some '#') : ofWords (word :: rest) = .ok none := by
  rw [ofWords, if_pos h]

theorem ofWords_command (h : Command.ofWord? (Text.lowerAscii word) = some command) :
    ofWords (word :: rest) = (Script.action rest command).map some := by
  have hcomment : ¬ word.toList.head? = some '#' := by
    rw [← head?_lowerAscii, ← Command.word_of_ofWord? h]
    exact command.head?_word
  rw [ofWords, if_neg hcomment, h]

theorem ofWords_unknown (hcomment : word.toList.head? ≠ some '#')
    (h : Command.ofWord? (Text.lowerAscii word) = none) :
    ofWords (word :: rest) = .error (.unknownCommand (Text.lowerAscii word)) := by
  rw [ofWords, if_neg hcomment, h]

/-! ## What is read follows the rules -/

section Follows

variable {what first second : String}

theorem means_withNone (hform : form? word = some (.ids [])) {a : Action}
    (hasks : Asks word [] a) : Means (word :: rest) ((withNone a rest).map some) := by
  cases rest with
  | nil => exact Means.action hasks
  | cons next rest =>
    exact @Means.trailingInput word [] [] _ hform rfl (List.cons_ne_nil _ _)

theorem means_withOne (hform : form? word = some (.ids [what])) {f : String → Action}
    (hasks : ∀ id, Asks word [id] (f id)) : Means (word :: rest) ((withOne what f rest).map some) := by
  cases rest with
  | nil => exact Means.missingId hform rfl
  | cons id rest =>
    cases rest with
    | nil => exact Means.action (hasks id)
    | cons next rest =>
      exact @Means.trailingInput word [what] [id] _ hform rfl (List.cons_ne_nil _ _)

theorem means_withTwo (hform : form? word = some (.ids [first, second]))
    {f : String → String → Action} (hasks : ∀ x y, Asks word [x, y] (f x y)) :
    Means (word :: rest) ((withTwo first second f rest).map some) := by
  cases rest with
  | nil => exact Means.missingId hform rfl
  | cons x rest =>
    cases rest with
    | nil => exact Means.missingId hform rfl
    | cons y rest =>
      cases rest with
      | nil => exact Means.action (hasks x y)
      | cons next rest =>
        exact @Means.trailingInput word [first, second] [x, y] _ hform rfl (List.cons_ne_nil _ _)

theorem means_withModifier (hform : form? word = some .key) {f : Modifiers → Action}
    (hasks : ∀ {keys modifiers}, HeldKey keys modifiers → Asks word keys (f modifiers)) :
    Means (word :: rest) ((withModifier f rest).map some) := by
  cases rest with
  | nil => exact Means.action (hasks HeldKey.none)
  | cons key rest =>
    rw [withModifier]
    split
    · rename_i hkey
      subst hkey
      cases rest with
      | nil => exact Means.action (hasks HeldKey.onlyMeta)
      | cons next rest => exact Means.trailingKey hform (Or.inl rfl) (List.cons_ne_nil _ _)
    · split
      · rename_i hkey
        subst hkey
        cases rest with
        | nil => exact Means.action (hasks HeldKey.onlyShift)
        | cons next rest => exact Means.trailingKey hform (Or.inr rfl) (List.cons_ne_nil _ _)
      · rename_i hmeta hshift
        exact Means.wrongKey hform hmeta hshift

theorem means_withPhrase (hform : form? word = some (.text (some what))) {f : String → Action}
    (hasks : rest ≠ [] → Asks word rest (f (Text.spaced rest))) :
    Means (word :: rest) ((withPhrase what f rest).map some) := by
  cases rest with
  | nil => exact Means.missingText hform
  | cons next rest => exact Means.action (hasks (List.cons_ne_nil _ _))

theorem means_action (command : Command) (rest : List String) :
    Means (command.word :: rest) ((Script.action rest command).map some) := by
  cases command with
  | click => exact means_withOne rfl Asks.click
  | metaClick => exact means_withOne rfl Asks.metaClick
  | shiftClick => exact means_withOne rfl Asks.shiftClick
  | up => exact means_withModifier rfl Asks.up
  | down => exact means_withModifier rfl Asks.down
  | expand => exact means_withOne rfl Asks.expand
  | collapse => exact means_withOne rfl Asks.collapse
  | toggle => exact means_withOne rfl Asks.toggle
  | activate => exact means_withOne rfl Asks.activate
  | clear => exact means_withNone rfl Asks.clear
  | sort => exact means_withPhrase rfl Asks.sort
  | drop => exact means_withTwo rfl Asks.drop
  | rename => exact means_withOne rfl Asks.rename
  | name => exact Means.action (Asks.name rest)
  | folder => exact means_withPhrase rfl Asks.folder
  | remove => exact means_withOne rfl Asks.remove
  | tick => exact means_withNone rfl Asks.tick

theorem means_ofWords (words : List String) : Means (lowered words) (ofWords words) := by
  cases words with
  | nil => exact Means.blank
  | cons word rest =>
    by_cases hcomment : word.toList.head? = some '#'
    · rw [ofWords_comment hcomment]
      exact Means.comment ((head?_lowerAscii word).2 hcomment)
    · cases hcommand : Command.ofWord? (Text.lowerAscii word) with
      | none =>
        rw [ofWords_unknown hcomment hcommand]
        exact Means.unknownCommand (mt (head?_lowerAscii word).1 hcomment) (form?_eq_none hcommand)
      | some command =>
        rw [ofWords_command hcommand, lowered, ← Command.word_of_ofWord? hcommand]
        exact means_action command rest

end Follows

/-! ## The rules leave nothing open -/

theorem action_of_asks (h : Asks word arguments action) :
    ∃ command, command.word = word ∧ Script.action arguments command = .ok action := by
  cases h with
  | click id => exact ⟨.click, rfl, rfl⟩
  | metaClick id => exact ⟨.metaClick, rfl, rfl⟩
  | shiftClick id => exact ⟨.shiftClick, rfl, rfl⟩
  | up hkey => exact ⟨.up, rfl, by cases hkey <;> rfl⟩
  | down hkey => exact ⟨.down, rfl, by cases hkey <;> rfl⟩
  | expand id => exact ⟨.expand, rfl, rfl⟩
  | collapse id => exact ⟨.collapse, rfl, rfl⟩
  | toggle id => exact ⟨.toggle, rfl, rfl⟩
  | activate id => exact ⟨.activate, rfl, rfl⟩
  | clear => exact ⟨.clear, rfl, rfl⟩
  | sort hne => exact ⟨.sort, rfl, withPhrase_eq_ok_iff.2 ⟨hne, rfl⟩⟩
  | drop dragged target => exact ⟨.drop, rfl, rfl⟩
  | rename id => exact ⟨.rename, rfl, rfl⟩
  | name words => exact ⟨.name, rfl, rfl⟩
  | folder hne => exact ⟨.folder, rfl, withPhrase_eq_ok_iff.2 ⟨hne, rfl⟩⟩
  | remove id => exact ⟨.remove, rfl, rfl⟩
  | tick => exact ⟨.tick, rfl, rfl⟩

theorem action_of_missingId {what : String} (hform : command.form = .ids names)
    (h : names[arguments.length]? = some what) :
    Script.action arguments command = .error (.missingArgument what) := by
  cases command with
  | click | metaClick | shiftClick | expand | collapse | toggle | activate | rename | remove =>
    cases hform
    cases arguments with
    | nil =>
      cases h
      rfl
    | cons id rest => simp at h
  | clear | tick =>
    cases hform
    simp at h
  | drop =>
    cases hform
    rcases arguments with _ | ⟨dragged, _ | ⟨target, rest⟩⟩
    · cases h
      rfl
    · cases h
      rfl
    · simp at h
  | up | down | sort | name | folder => cases hform

theorem action_of_trailingInput (hform : command.form = .ids names)
    (h : arguments.length = names.length) (hrest : rest ≠ []) :
    Script.action (arguments ++ rest) command = .error (.trailingInput (Text.spaced rest)) := by
  obtain ⟨next, rest, rfl⟩ := List.exists_cons_of_ne_nil hrest
  cases command with
  | click | metaClick | shiftClick | expand | collapse | toggle | activate | rename | remove =>
    cases hform
    obtain ⟨id, rfl⟩ := List.length_eq_one_iff.1 h
    rfl
  | clear | tick =>
    cases hform
    obtain rfl := List.length_eq_zero_iff.1 h
    rfl
  | drop =>
    cases hform
    obtain ⟨dragged, target, rfl⟩ := List.length_eq_two.1 h
    rfl
  | up | down | sort | name | folder => cases hform

theorem withModifier_of_wrongKey {f : Modifiers → Action} {key : String} (hmeta : key ≠ "meta")
    (hshift : key ≠ "shift") : withModifier f (key :: rest) = .error (.trailingInput key) := by
  rw [withModifier, if_neg hmeta, if_neg hshift]

theorem withModifier_of_trailing {f : Modifiers → Action} {key : String}
    (hkey : key = "meta" ∨ key = "shift") (hrest : rest ≠ []) :
    withModifier f (key :: rest) = .error (.trailingInput (Text.spaced rest)) := by
  obtain ⟨next, rest, rfl⟩ := List.exists_cons_of_ne_nil hrest
  rcases hkey with rfl | rfl <;> rfl

theorem action_of_key (hform : command.form = .key) :
    ∃ f, ∀ words, Script.action words command = withModifier f words := by
  cases command with
  | up | down => exact ⟨_, fun words => rfl⟩
  | _ => cases hform

theorem action_of_missingText {what : String} (hform : command.form = .text (some what)) :
    Script.action [] command = .error (.missingArgument what) := by
  cases command with
  | sort | folder =>
    cases hform
    rfl
  | _ => cases hform

theorem ofWords_eq_of_means (h : Means (lowered words) outcome) : ofWords words = outcome := by
  cases words with
  | nil =>
    cases h
    rfl
  | cons word rest =>
    rw [lowered] at h
    cases h with
    | comment hcomment => exact ofWords_comment ((head?_lowerAscii word).1 hcomment)
    | action hasks =>
      obtain ⟨command, hword, haction⟩ := action_of_asks hasks
      rw [ofWords_command (hword ▸ command.ofWord?_word), haction]
      rfl
    | unknownCommand hcomment hform =>
      apply ofWords_unknown (mt (head?_lowerAscii word).2 hcomment)
      cases hcommand : Command.ofWord? (Text.lowerAscii word) with
      | none => rfl
      | some command =>
        rw [← Command.word_of_ofWord? hcommand, form?_word] at hform
        cases hform
    | missingId hform hwhat =>
      obtain ⟨command, hcommand, hids⟩ := exists_command hform
      rw [ofWords_command hcommand, action_of_missingId hids hwhat]
      rfl
    | missingText hform =>
      obtain ⟨command, hcommand, htext⟩ := exists_command hform
      rw [ofWords_command hcommand, action_of_missingText htext]
      rfl
    | trailingInput hform hlength hrest =>
      obtain ⟨command, hcommand, hids⟩ := exists_command hform
      rw [ofWords_command hcommand, action_of_trailingInput hids hlength hrest]
      rfl
    | wrongKey hform hmeta hshift =>
      obtain ⟨command, hcommand, hkey⟩ := exists_command hform
      obtain ⟨f, hf⟩ := action_of_key hkey
      rw [ofWords_command hcommand, hf, withModifier_of_wrongKey hmeta hshift]
      rfl
    | trailingKey hform hkey hrest =>
      obtain ⟨command, hcommand, hform⟩ := exists_command hform
      obtain ⟨f, hf⟩ := action_of_key hform
      rw [ofWords_command hcommand, hf, withModifier_of_trailing hkey hrest]
      rfl

theorem ofWords_eq_iff : ofWords words = outcome ↔ Means (lowered words) outcome := by
  constructor
  · rintro rfl
    exact means_ofWords words
  · exact ofWords_eq_of_means

/-- Blanks tell the words of a line apart, and the rules say what the words mean. -/
theorem parseLine_eq_iff {line : String} :
    parseLine line = outcome ↔
      ∃ words, Text.Splits line.toList words ∧ Means (lowered words) outcome := by
  rw [parseLine, ofWords_eq_iff]
  constructor
  · exact fun h => ⟨_, Text.words_eq_iff.1 rfl, h⟩
  · rintro ⟨words, hsplits, h⟩
    rwa [Text.words_eq_iff.2 hsplits]

theorem means_ok_none_iff :
    Means (lowered words) (.ok none) ↔ ∀ word ∈ words.head?, word.toList.head? = some '#' := by
  cases words with
  | nil => exact iff_of_true Means.blank (by simp)
  | cons word rest =>
    rw [← ofWords_eq_iff]
    by_cases hcomment : word.toList.head? = some '#'
    · exact iff_of_true (ofWords_comment hcomment) (by simpa using hcomment)
    · refine iff_of_false (fun hread => ?_) (by simpa using hcomment)
      rw [ofWords_eq_iff, lowered] at hread
      cases hread with
      | comment h => exact hcomment ((head?_lowerAscii word).1 h)

theorem exists_of_means_action (h : Means (lowered words) (.ok (some action))) :
    ∃ word rest, words = word :: rest ∧ Asks (Text.lowerAscii word) rest action := by
  cases words with
  | nil => cases h
  | cons word rest =>
    rw [lowered] at h
    cases h with
    | action hasks => exact ⟨word, rest, rfl, hasks⟩

/-! ## The actions of scripts -/

theorem HeldKey.at_most_one {keys : List String} {modifiers : Modifiers}
    (h : HeldKey keys modifiers) : ¬ (modifiers.metaKey = true ∧ modifiers.shiftKey = true) := by
  cases h <;> decide

theorem exists_heldKey {modifiers : Modifiers}
    (h : ¬ (modifiers.metaKey = true ∧ modifiers.shiftKey = true)) :
    ∃ keys, HeldKey keys modifiers ∧ ∀ key ∈ keys, Text.IsWord key := by
  obtain ⟨metaKey, shiftKey⟩ := modifiers
  cases metaKey with
  | false =>
    cases shiftKey with
    | false => exact ⟨[], HeldKey.none, by simp⟩
    | true => exact ⟨["shift"], HeldKey.onlyShift, by decide⟩
  | true =>
    cases shiftKey with
    | false => exact ⟨["meta"], HeldKey.onlyMeta, by decide⟩
    | true => exact absurd ⟨rfl, rfl⟩ h

theorem scriptable_of_asks (h : Asks word arguments action)
    (harguments : ∀ argument ∈ arguments, Text.IsWord argument) : Scriptable action := by
  have hone {id : EntryId} (hids : arguments = [id]) : Text.IsWord id :=
    harguments id (hids ▸ List.mem_cons_self)
  cases h with
  | click | metaClick | shiftClick => exact Scriptable.click (hone rfl) (by decide)
  | up hkey => exact Scriptable.focusAdjacent (Or.inl rfl) hkey.at_most_one
  | down hkey => exact Scriptable.focusAdjacent (Or.inr rfl) hkey.at_most_one
  | expand => exact Scriptable.expand (hone rfl)
  | collapse => exact Scriptable.collapse (hone rfl)
  | toggle => exact Scriptable.toggleExpanded (hone rfl)
  | activate => exact Scriptable.activate (hone rfl)
  | clear => exact Scriptable.clearFocus
  | sort hne => exact Scriptable.sortBy hne harguments
  | drop =>
    simp only [List.forall_mem_cons] at harguments
    exact Scriptable.drop harguments.1 harguments.2.1
  | rename => exact Scriptable.beginRename (hone rfl)
  | name => exact Scriptable.finishRename harguments
  | folder hne => exact Scriptable.createFolder hne harguments
  | remove => exact Scriptable.remove (hone rfl)
  | tick => exact Scriptable.tick

theorem exists_asks (h : Scriptable action) :
    ∃ word arguments, Asks word arguments action ∧
      ∀ argument ∈ arguments, Text.IsWord argument := by
  have hone {id : EntryId} (hid : Text.IsWord id) : ∀ argument ∈ [id], Text.IsWord argument :=
    List.forall_mem_singleton.2 hid
  cases h with
  | clearFocus => exact ⟨_, _, Asks.clear, by simp⟩
  | tick => exact ⟨_, _, Asks.tick, by simp⟩
  | focusAdjacent hdelta hmodifiers =>
    obtain ⟨keys, hkey, hkeys⟩ := exists_heldKey hmodifiers
    rcases hdelta with rfl | rfl
    · exact ⟨_, _, Asks.up hkey, hkeys⟩
    · exact ⟨_, _, Asks.down hkey, hkeys⟩
  | click hid hmodifiers =>
    obtain ⟨keys, hkey, -⟩ := exists_heldKey hmodifiers
    cases hkey with
    | none => exact ⟨_, _, Asks.click _, hone hid⟩
    | onlyMeta => exact ⟨_, _, Asks.metaClick _, hone hid⟩
    | onlyShift => exact ⟨_, _, Asks.shiftClick _, hone hid⟩
  | expand hid => exact ⟨_, _, Asks.expand _, hone hid⟩
  | collapse hid => exact ⟨_, _, Asks.collapse _, hone hid⟩
  | toggleExpanded hid => exact ⟨_, _, Asks.toggle _, hone hid⟩
  | activate hid => exact ⟨_, _, Asks.activate _, hone hid⟩
  | beginRename hid => exact ⟨_, _, Asks.rename _, hone hid⟩
  | remove hid => exact ⟨_, _, Asks.remove _, hone hid⟩
  | drop hdragged htarget =>
    exact ⟨_, _, Asks.drop _ _, List.forall_mem_cons.2 ⟨hdragged, hone htarget⟩⟩
  | sortBy hne hwords => exact ⟨_, _, Asks.sort hne, hwords⟩
  | createFolder hne hwords => exact ⟨_, _, Asks.folder hne, hwords⟩
  | finishRename hwords => exact ⟨_, _, Asks.name _, hwords⟩

theorem Command.isWord_word (command : Command) : Text.IsWord command.word := by
  cases command <;> decide

theorem Command.lowerAscii_word (command : Command) :
    Text.lowerAscii command.word = command.word := by
  cases command <;> decide

theorem parseLine_spaced (h : Asks word arguments action)
    (harguments : ∀ argument ∈ arguments, Text.IsWord argument) :
    parseLine (Text.spaced (word :: arguments)) = .ok (some action) := by
  obtain ⟨command, rfl, -⟩ := action_of_asks h
  have hwords := List.forall_mem_cons.2 ⟨command.isWord_word, harguments⟩
  rw [parseLine, Text.words_spaced hwords, ofWords_eq_iff, lowered, command.lowerAscii_word]
  exact Means.action h

/-- Lines are read by the rules on their words, the first of them in lower case, and on nothing else.
A line asks for nothing exactly when it has no word or its first word begins with a number sign.
The actions that lines ask for are the scriptable ones, and each of them is asked for by its command
and arguments with single spaces between them. -/
theorem scripts_follow_grammar :
    (∀ line outcome, parseLine line = outcome ↔
      ∃ words, Text.Splits line.toList words ∧ Means (lowered words) outcome) ∧
    (∀ line line' words words', Text.Splits line.toList words → Text.Splits line'.toList words' →
      lowered words = lowered words' → parseLine line = parseLine line') ∧
    (∀ line, parseLine line = .ok none ↔
      ∃ words, Text.Splits line.toList words ∧
        ∀ word ∈ words.head?, word.toList.head? = some '#') ∧
    (∀ action, (∃ line, parseLine line = .ok (some action)) ↔ Scriptable action) ∧
    ∀ action, Scriptable action → ∃ word arguments, Asks word arguments action ∧
      (∀ argument ∈ arguments, Text.IsWord argument) ∧
      parseLine (Text.spaced (word :: arguments)) = .ok (some action) := by
  refine ⟨fun line outcome => parseLine_eq_iff, ?_, fun line => ?_, fun action => ⟨?_, ?_⟩, ?_⟩
  · intro line line' words words' hsplits hsplits' heq
    rw [parseLine_eq_iff]
    have hmeans := means_ofWords words'
    rw [← heq] at hmeans
    have hread : parseLine line' = ofWords words' := by
      rw [parseLine, Text.words_eq_iff.2 hsplits']
    exact ⟨words, hsplits, hread ▸ hmeans⟩
  · rw [parseLine_eq_iff]
    apply exists_congr
    intro words
    rw [means_ok_none_iff]
  · rintro ⟨line, hline⟩
    obtain ⟨words, hsplits, hmeans⟩ := parseLine_eq_iff.1 hline
    obtain ⟨word, rest, rfl, hasks⟩ := exists_of_means_action hmeans
    exact scriptable_of_asks hasks fun argument hmem =>
      hsplits.isWord argument (List.mem_cons_of_mem _ hmem)
  · intro h
    obtain ⟨word, arguments, hasks, harguments⟩ := exists_asks h
    exact ⟨_, parseLine_spaced hasks harguments⟩
  · intro action h
    obtain ⟨word, arguments, hasks, harguments⟩ := exists_asks h
    exact ⟨word, arguments, hasks, harguments, parseLine_spaced hasks harguments⟩

theorem scripts_follow_grammar_dropping :
    let line := "\u00a0DROP b\u2003d "
    Text.Splits line.toList ["DROP", "b", "d"] ∧
      lowered ["DROP", "b", "d"] = lowered ["drop", "b", "d"] ∧
      parseLine line = .ok (some (.drop "b" "d")) ∧ parseLine line = parseLine "drop b d" ∧
      Scriptable (.drop "b" "d") ∧
      parseLine "drop b" = .error (.missingArgument "target folder id") := by
  intro line
  have hsplits : Text.Splits line.toList ["DROP", "b", "d"] :=
    Text.words_eq_iff.1 (by decide +kernel)
  have hspaced : Text.Splits "drop b d".toList ["drop", "b", "d"] :=
    Text.words_eq_iff.1 (by decide +kernel)
  have hshort : Text.Splits "drop b".toList ["drop", "b"] :=
    Text.words_eq_iff.1 (by decide +kernel)
  have hlowered : lowered ["DROP", "b", "d"] = ["drop", "b", "d"] := by decide +kernel
  have hlowered' : lowered ["drop", "b", "d"] = ["drop", "b", "d"] := by decide +kernel
  have hshort' : lowered ["drop", "b"] = ["drop", "b"] := by decide +kernel
  have hsame : lowered ["DROP", "b", "d"] = lowered ["drop", "b", "d"] := by
    rw [hlowered, hlowered']
  obtain ⟨hread, hwords, -, hactions, -⟩ := scripts_follow_grammar
  have hdrop : parseLine line = .ok (some (.drop "b" "d")) :=
    (hread _ _).2 ⟨_, hsplits, hlowered ▸ Means.action (Asks.drop "b" "d")⟩
  have hmissing : parseLine "drop b" = .error (.missingArgument "target folder id") :=
    (hread _ _).2 ⟨_, hshort, hshort' ▸ Means.missingId rfl rfl⟩
  exact ⟨hsplits, hsame, hdrop, hwords _ _ _ _ hsplits hspaced hsame,
    (hactions _).1 ⟨line, hdrop⟩, hmissing⟩

end Script

end TreeBrowser
