import TreeBrowser.Browser.Step
import TreeBrowser.Outline
import TreeBrowser.Script
import TreeBrowser.Text.Utf8

/-!
# Replays

A script played on a browser. The transcript opens with the outline; each line that asks for an
action is shown with the effects of the action and, when it has changed anything, the outline after
it; a line that is no action is reported with its number.
-/

namespace TreeBrowser

inductive Printed where
  | outline (rows : List OutlineRow)
  | command (line : String)
  | effect (effect : Effect)
  | fault (lineNumber : Nat) (error : ScriptError)

def Printed.lines : Printed → List String
  | .outline rows => rows.map OutlineRow.text
  | .command text => ["$ " ++ text]
  | .effect e => ["  -> " ++ e.literal]
  | .fault lineNumber error => ["! line " ++ toString lineNumber ++ ": " ++ error.message]

def transcriptText (printed : List Printed) : String :=
  String.join ((printed.flatMap Printed.lines).map fun line => line ++ "\n")

namespace Browser

def play (b : Browser) (action : Action) : Browser × List Printed :=
  let (after, outcome) := b.dispatch action
  (after, outcome.effects.map .effect ++ if outcome.changed then [.outline after.outline] else [])

def playLine (b : Browser) (lineNumber : Nat) (line : String) : Browser × List Printed :=
  match Script.parseLine line with
  | .error error => (b, [.fault lineNumber error])
  | .ok none => (b, [])
  | .ok (some action) =>
    let (b, printed) := b.play action
    (b, .command (Text.trim line) :: printed)

end Browser

/-- What has been made of the lines of a script so far: the browser after them, what they have
shown, and whether all of them could be read. -/
structure Replay where
  browser : Browser
  printed : List Printed
  finished : Bool

/-- Plays the lines of a script, of which the first has the given number, up to a line that is not
well-formed text. -/
def Browser.playLines (b : Browser) (lineNumber : Nat) : List (List UInt8) → Replay
  | [] => ⟨b, [], true⟩
  | bytes :: rest =>
    match Text.Utf8.decode? bytes with
    | none => ⟨b, [], false⟩
    | some line =>
      let (b, printed) := b.playLine lineNumber line
      let replay := b.playLines (lineNumber + 1) rest
      { replay with printed := printed ++ replay.printed }

/-- The lines of some bytes, of which the first continues `line`, held newest first. -/
def linesAfter (line : List UInt8) : List UInt8 → List (List UInt8)
  | [] => if line.isEmpty then [] else [line.reverse]
  | b :: rest => if b = 10 then line.reverse :: linesAfter [] rest else linesAfter (b :: line) rest

def scriptLines (bytes : List UInt8) : List (List UInt8) :=
  linesAfter [] bytes

end TreeBrowser
