import TreeBrowser.Proofs.Outline
import TreeBrowser.Proofs.Script
import TreeBrowser.Proofs.Workspace.Samples
import TreeBrowser.Replay

/-!
# The outline on the screen

A transcript shows an outline at its start and after each action that reports a change. That is
often enough: whichever lines have been played, the outline that was shown last is the outline of
the browser as it is now. Between the lines nothing else happens, and a line that is no action
leaves the browser alone.
-/

namespace TreeBrowser

/-! ## The last outline of a transcript -/

def Printed.rows? : Printed → Option (List OutlineRow)
  | .outline rows => some rows
  | _ => none

def lastOutline? (printed : List Printed) : Option (List OutlineRow) :=
  (printed.filterMap Printed.rows?).getLast?

theorem lastOutline?_append (first second : List Printed) :
    lastOutline? (first ++ second) = (lastOutline? second).or (lastOutline? first) := by
  rw [lastOutline?, List.filterMap_append, List.getLast?_append]
  rfl

theorem lastOutline?_effects (effects : List Effect) :
    lastOutline? (effects.map .effect) = none := by
  have hnone : (effects.map Printed.effect).filterMap Printed.rows? = [] := by
    rw [List.filterMap_map, List.filterMap_eq_nil_iff]
    exact fun _ _ => rfl
  rw [lastOutline?, hnone]
  rfl

namespace Browser

/-- The outline that was printed last is the outline of the browser as it is. -/
def UpToDate (b : Browser) (printed : List Printed) : Prop :=
  lastOutline? printed = some b.outline

variable {b : Browser} {printed : List Printed} {lineNumber : Nat} {line : String}
  {bytes : List UInt8}

/-! ## One line -/

theorem lastOutline?_play (b : Browser) (action : Action) :
    lastOutline? (b.play action).2 =
      if (b.dispatch action).2.changed then some (b.dispatch action).1.outline else none := by
  simp only [play]
  rw [lastOutline?_append, lastOutline?_effects, Option.or_none]
  split <;> rfl

theorem UpToDate.play {action : Action} (h : b.UpToDate printed)
    (haction : ∀ workspace, action ≠ .replaceWorkspace workspace) :
    (b.play action).1.UpToDate (printed ++ (b.play action).2) := by
  rw [UpToDate, lastOutline?_append, lastOutline?_play]
  show _ = some (b.dispatch action).1.outline
  cases hchanged : (b.dispatch action).2.changed with
  | true => rfl
  | false =>
    rw [outline_dispatch haction hchanged]
    exact h

theorem playLine_idle (h : Script.parseLine line = .ok none) (b : Browser) (lineNumber : Nat) :
    b.playLine lineNumber line = (b, []) := by
  rw [playLine, h]

theorem playLine_action {action : Action} (h : Script.parseLine line = .ok (some action))
    (b : Browser) (lineNumber : Nat) :
    (b.playLine lineNumber line).1 = (b.dispatch action).1 := by
  rw [playLine, h]
  rfl

theorem playLine_error {error : ScriptError} (h : Script.parseLine line = .error error)
    (b : Browser) (lineNumber : Nat) :
    b.playLine lineNumber line = (b, [.fault lineNumber error]) := by
  rw [playLine, h]

theorem oneLine_fault {error : ScriptError} (h : Script.parseLine line = .error error)
    (lineNumber : Nat) :
    Text.OneLine ("! line " ++ toString lineNumber ++ ": " ++ error.message) := by
  simp only [Text.oneLine_append]
  exact ⟨⟨⟨by decide, Text.oneLine_toString _⟩, by decide⟩, Script.oneLine_of_parseLine_error h⟩

theorem UpToDate.playLine (h : b.UpToDate printed) (lineNumber : Nat) (line : String) :
    (b.playLine lineNumber line).1.UpToDate (printed ++ (b.playLine lineNumber line).2) := by
  cases hline : Script.parseLine line with
  | error error =>
    rw [playLine_error hline, UpToDate, lastOutline?_append]
    exact h
  | ok asked =>
    cases asked with
    | none => simpa only [playLine_idle hline, List.append_nil] using h
    | some action =>
      have hplayed := h.play (Script.parseLine_ne_replaceWorkspace hline)
      simp only [Browser.playLine, hline]
      rw [UpToDate, lastOutline?_append] at hplayed ⊢
      exact hplayed

/-! ## All lines -/

theorem playLines_nil (b : Browser) (lineNumber : Nat) :
    b.playLines lineNumber [] = ⟨b, [], true⟩ :=
  rfl

theorem playLines_cons (hbytes : Text.Utf8.decode? bytes = some line) (b : Browser)
    (lineNumber : Nat) (rest : List (List UInt8)) :
    b.playLines lineNumber (bytes :: rest) =
      let replay := (b.playLine lineNumber line).1.playLines (lineNumber + 1) rest
      { replay with printed := (b.playLine lineNumber line).2 ++ replay.printed } := by
  rw [playLines, hbytes]

theorem playLines_cons_none (hbytes : Text.Utf8.decode? bytes = none) (b : Browser)
    (lineNumber : Nat) (rest : List (List UInt8)) :
    b.playLines lineNumber (bytes :: rest) = ⟨b, [], false⟩ := by
  rw [playLines, hbytes]

theorem UpToDate.playLines (h : b.UpToDate printed) (lineNumber : Nat)
    (lines : List (List UInt8)) :
    (b.playLines lineNumber lines).browser.UpToDate
      (printed ++ (b.playLines lineNumber lines).printed) := by
  induction lines generalizing b printed lineNumber with
  | nil => simpa only [Browser.playLines, List.append_nil] using h
  | cons bytes rest ih =>
    cases hbytes : Text.Utf8.decode? bytes with
    | none => simpa only [playLines_cons_none hbytes, List.append_nil] using h
    | some line =>
      rw [playLines_cons hbytes, ← List.append_assoc]
      exact ih (h.playLine lineNumber line) (lineNumber + 1)

/-- The lines of a script are played one after another, and a line that cannot be read ends the
replay. -/
theorem playLines_append (b : Browser) (lineNumber : Nat) (first second : List (List UInt8)) :
    b.playLines lineNumber (first ++ second) =
      let replay := b.playLines lineNumber first
      let next := replay.browser.playLines (lineNumber + first.length) second
      if replay.finished then { next with printed := replay.printed ++ next.printed }
      else replay := by
  induction first generalizing b lineNumber with
  | nil => rfl
  | cons bytes rest ih =>
    rw [List.cons_append]
    cases hbytes : Text.Utf8.decode? bytes with
    | none => simp only [playLines_cons_none hbytes, Bool.false_eq_true, if_false]
    | some line =>
      simp only [playLines_cons hbytes, ih, List.length_cons, Nat.add_assoc, Nat.add_comm 1]
      split
      · simp only [List.append_assoc]
      · rfl

theorem finished_playLines_iff (b : Browser) (lineNumber : Nat) (lines : List (List UInt8)) :
    (b.playLines lineNumber lines).finished = true ↔
      ∀ bytes ∈ lines, (Text.Utf8.decode? bytes).isSome = true := by
  induction lines generalizing b lineNumber with
  | nil => simp [playLines]
  | cons bytes rest ih =>
    rw [List.forall_mem_cons]
    cases hbytes : Text.Utf8.decode? bytes with
    | none => simp [playLines_cons_none hbytes]
    | some line => simp [playLines_cons hbytes, ih]

theorem printed_playLines_append (b : Browser) (lineNumber : Nat)
    (first second : List (List UInt8)) :
    (b.playLines lineNumber first).printed <+:
      (b.playLines lineNumber (first ++ second)).printed := by
  rw [playLines_append]
  dsimp only
  split
  · exact List.prefix_append _ _
  · exact List.prefix_rfl

theorem playLines_take_succ (b : Browser) (lineNumber : Nat) {lines : List (List UInt8)} {n : Nat}
    (hn : lines[n]? = some bytes) (hbytes : Text.Utf8.decode? bytes = some line)
    (hfinished : (b.playLines lineNumber (lines.take n)).finished = true) :
    b.playLines lineNumber (lines.take (n + 1)) =
      let replay := b.playLines lineNumber (lines.take n)
      let next := replay.browser.playLine (lineNumber + n) line
      ⟨next.1, replay.printed ++ next.2, true⟩ := by
  have hlength : (lines.take n).length = n := by
    have hlt := (List.getElem?_eq_some_iff.1 hn).1
    rw [List.length_take]
    omega
  rw [List.take_add_one, hn, Option.toList_some, playLines_append, hlength]
  simp only [hfinished, if_true, playLines_cons hbytes, playLines_nil, List.append_nil]

/-- On every workspace, with all settings and for all scripts: whichever lines have been played,
what has been printed by then begins the transcript and its last outline is the outline of the
browser as it is. A line that is an action is done on what the lines before it have left. A line
that is blank or a comment changes nothing and shows nothing. A line that is no action leaves the
browser as it was and shows one line, with its number among all lines of the script. -/
theorem outline_stays_fresh (workspace : Workspace) (settings : Settings)
    (lines : List (List UInt8)) :
    let b := start workspace settings
    let after (n : Nat) := b.playLines 1 (lines.take n)
    (∀ n, (after n).printed <+: (b.playLines 1 lines).printed ∧
      lastOutline? (.outline b.outline :: (after n).printed) = some (after n).browser.outline) ∧
    ∀ n bytes line, lines[n]? = some bytes → Text.Utf8.decode? bytes = some line →
      (after n).finished = true →
      (∀ action, Script.parseLine line = .ok (some action) →
        (after (n + 1)).browser = ((after n).browser.dispatch action).1) ∧
      (Text.trim line = "" ∨ (Text.trim line).toList.head? = some '#' → after (n + 1) = after n) ∧
      ∀ error, Script.parseLine line = .error error →
        after (n + 1) =
          { after n with printed := (after n).printed ++ [.fault (n + 1) error] } ∧
        let text := "! line " ++ toString (n + 1) ++ ": " ++ error.message
        (Printed.fault (n + 1) error).lines = [text] ∧ Text.OneLine text := by
  intro b after
  have hstart : b.UpToDate [.outline b.outline] := rfl
  refine ⟨fun n => ⟨?_, hstart.playLines 1 (lines.take n)⟩, ?_⟩
  · have hprinted := b.printed_playLines_append 1 (lines.take n) (lines.drop n)
    rwa [List.take_append_drop] at hprinted
  · intro n bytes line hn hbytes hfinished
    have hnext : after (n + 1) = _ := b.playLines_take_succ 1 hn hbytes hfinished
    refine ⟨fun action haction => ?_, fun hidle => ?_,
      fun error herror => ⟨?_, rfl, oneLine_fault herror _⟩⟩
    · rw [hnext]
      exact playLine_action haction _ _
    · simp only [playLine_idle (Script.parseLine_eq_ok_none_iff.2 hidle), List.append_nil] at hnext
      rw [hnext, ← hfinished]
    · simp only [playLine_error herror, Nat.add_comm 1 n] at hnext
      rw [hnext, ← hfinished]

/-- A folder is opened, a line is blank, and the third line is no action. -/
theorem outline_fresh_after_unknown_command :
    let b := start (workspaceOf twoFoldersTree) {}
    let lines := ["expand a", "", "fly a"].map Text.Utf8.encode
    let after (n : Nat) := b.playLines 1 (lines.take n)
    lastOutline? (.outline b.outline :: (after 3).printed) = some (after 3).browser.outline ∧
    (after 1).browser = (b.dispatch (.expand "a")).1 ∧ after 2 = after 1 ∧
    after 3 = { after 2 with
      printed := (after 2).printed ++ [.fault 3 (.unknownCommand "fly")] } := by
  intro b lines after
  have hdecode0 : Text.Utf8.decode? (Text.Utf8.encode "expand a") = some "expand a" := by
    decide +kernel
  have hdecode1 : Text.Utf8.decode? (Text.Utf8.encode "") = some "" := by decide +kernel
  have hdecode2 : Text.Utf8.decode? (Text.Utf8.encode "fly a") = some "fly a" := by decide +kernel
  have hreadable : ∀ bytes ∈ lines, (Text.Utf8.decode? bytes).isSome = true := by
    simp only [lines, List.map_cons, List.map_nil, List.forall_mem_cons, hdecode0, hdecode1,
      hdecode2, Option.isSome_some, true_and]
    exact fun _ h => absurd h List.not_mem_nil
  have hfinished (n : Nat) : (after n).finished = true :=
    (finished_playLines_iff _ _ _).2 fun bytes h => hreadable bytes (List.mem_of_mem_take h)
  have haction : Script.parseLine "expand a" = .ok (some (.expand "a")) := rfl
  have hfault : Script.parseLine "fly a" = .error (.unknownCommand "fly") := rfl
  obtain ⟨hfresh, hline⟩ := outline_stays_fresh (workspaceOf twoFoldersTree) {} lines
  obtain ⟨hopened, -⟩ := hline 0 _ "expand a" rfl hdecode0 (hfinished 0)
  obtain ⟨-, hblank, -⟩ := hline 1 _ "" rfl hdecode1 (hfinished 1)
  obtain ⟨-, -, hrefused⟩ := hline 2 _ "fly a" rfl hdecode2 (hfinished 2)
  exact ⟨(hfresh 3).2, hopened _ haction, hblank (Or.inl rfl), (hrefused _ hfault).1⟩

end Browser

end TreeBrowser
