import TreeBrowser.Browser.Action
import TreeBrowser.Text.Blank

/-!
# Scripts

A script writes one action on each line: a command and its arguments, as words with blanks between
them. A line without words, or whose first word begins with a number sign, asks for nothing.
-/

namespace TreeBrowser

inductive ScriptError where
  | unknownCommand (command : String)
  | missingArgument (what : String)
  | trailingInput (rest : String)
  deriving DecidableEq

def ScriptError.message : ScriptError → String
  | .unknownCommand command => "unknown command: " ++ command
  | .missingArgument what => "missing argument: " ++ what
  | .trailingInput rest => "unexpected input: " ++ rest

namespace Script

inductive Command where
  | click
  | metaClick
  | shiftClick
  | up
  | down
  | expand
  | collapse
  | toggle
  | activate
  | clear
  | sort
  | drop
  | rename
  | name
  | folder
  | remove
  | tick
  deriving DecidableEq

namespace Command

def word : Command → String
  | .click => "click"
  | .metaClick => "meta"
  | .shiftClick => "shift"
  | .up => "up"
  | .down => "down"
  | .expand => "expand"
  | .collapse => "collapse"
  | .toggle => "toggle"
  | .activate => "activate"
  | .clear => "clear"
  | .sort => "sort"
  | .drop => "drop"
  | .rename => "rename"
  | .name => "name"
  | .folder => "folder"
  | .remove => "remove"
  | .tick => "tick"

def all : List Command :=
  [click, metaClick, shiftClick, up, down, expand, collapse, toggle, activate, clear, sort, drop,
   rename, name, folder, remove, tick]

def ofWord? (word : String) : Option Command :=
  all.find? fun command => command.word == word

end Command

def withNone (action : Action) : List String → Except ScriptError Action
  | [] => .ok action
  | rest => .error (.trailingInput (Text.spaced rest))

def withOne (what : String) (action : String → Action) : List String → Except ScriptError Action
  | [] => .error (.missingArgument what)
  | argument :: rest => withNone (action argument) rest

def withTwo (first second : String) (action : String → String → Action) :
    List String → Except ScriptError Action
  | [] => .error (.missingArgument first)
  | argument :: rest => withOne second (action argument) rest

def withPhrase (what : String) (action : String → Action) (words : List String) :
    Except ScriptError Action :=
  if words.isEmpty then .error (.missingArgument what) else .ok (action (Text.spaced words))

def withModifier (action : Modifiers → Action) : List String → Except ScriptError Action
  | [] => .ok (action .none)
  | word :: rest =>
    if word = "meta" then withNone (action .onlyMeta) rest
    else if word = "shift" then withNone (action .onlyShift) rest
    else .error (.trailingInput word)

def action (words : List String) : Command → Except ScriptError Action
  | .click => withOne "entry id" (.click · .none) words
  | .metaClick => withOne "entry id" (.click · .onlyMeta) words
  | .shiftClick => withOne "entry id" (.click · .onlyShift) words
  | .up => withModifier (.focusAdjacent (-1)) words
  | .down => withModifier (.focusAdjacent 1) words
  | .expand => withOne "entry id" .expand words
  | .collapse => withOne "entry id" .collapse words
  | .toggle => withOne "entry id" .toggleExpanded words
  | .activate => withOne "entry id" .activate words
  | .clear => withNone .clearFocus words
  | .sort => withPhrase "column" .sortBy words
  | .drop => withTwo "dragged entry id" "target folder id" .drop words
  | .rename => withOne "entry id" .beginRename words
  | .name => .ok (.finishRename (Text.spaced words))
  | .folder => withPhrase "folder name" .createFolder words
  | .remove => withOne "entry id" .remove words
  | .tick => withNone .tick words

/-- What the words of a line ask for. ASCII letters of the command may be of either case. -/
def ofWords : List String → Except ScriptError (Option Action)
  | [] => .ok none
  | word :: rest =>
    if word.toList.head? = some '#' then .ok none
    else match Command.ofWord? (Text.lowerAscii word) with
      | some command => (action rest command).map some
      | none => .error (.unknownCommand (Text.lowerAscii word))

def parseLine (line : String) : Except ScriptError (Option Action) :=
  ofWords (Text.words line)

end Script

end TreeBrowser
