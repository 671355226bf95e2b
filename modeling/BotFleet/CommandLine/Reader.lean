import BotFleet.CommandLine.Setting

/-!
# Reading a command line

The words are read from left to right. A setting's value is looked at when the next known setting
begins or the words are over; an unknown word is reported at once.

* `UsageError`: what is wrong with a command line, or what it asks for instead of a run;
* `Word`, `Word.classify`: the forms of a word;
* `Progress`, `Progress.take`: what is known after some words;
* `readWords`: the settings that are given on the command line;
* `takeVariable`, `readVariables`: the settings that only the environment gives;
* `readSettings`: all settings.
-/

namespace BotFleet

/-- What keeps a command line from starting a run. -/
inductive UsageError where
  | help
  | version
  | unknown (word : String)
  | missingValue (s : Setting)
  | badValue (s : Setting)
  | repeated (s : Setting)
  | unneededValue (label : String)
deriving DecidableEq, Inhabited

/-- What a name or a letter on the command line stands for. -/
inductive Flag where
  | setting (s : Setting)
  | help
  | version
deriving DecidableEq, Inhabited

namespace Flag

def ofName? (name : String) : Option Flag :=
  if name = "help" then some help
  else if name = "version" then some version
  else (Setting.ofName? name).map setting

def ofLetter? (c : Char) : Option Flag :=
  if c = 'h' then some help
  else if c = 'V' then some version
  else (Setting.ofLetter? c).map setting

def takesValue : Flag → Bool
  | setting s => !s.isSwitch
  | _ => false

/-- How a flag is called in an error. -/
def label : Flag → String
  | setting s => s.label
  | help => "--help"
  | version => "--version"

end Flag

/-! ## Words -/

/-- The forms of a word. -/
inductive Word where
  | separator
  | flag (f : Flag) (attached : Option String)
  | unknown (reported : String)
  | plain (text : String)
deriving DecidableEq, Inhabited

namespace Word

/-- A word of two hyphens, a name, and perhaps a value after an equals sign. -/
def ofLong (cs : List Char) : Word :=
  let name := String.ofList (cs.takeWhile (· ≠ '='))
  let attached := match cs.dropWhile (· ≠ '=') with
    | [] => none
    | _ :: value => some (String.ofList value)
  match Flag.ofName? name with
  | some f => flag f attached
  | none => unknown ("--" ++ name)

/-- A word of one hyphen, a letter, and perhaps a value, with or without an equals sign. What
follows a letter that takes no value is never looked at. -/
def ofShort (c : Char) (cs : List Char) : Word :=
  match Flag.ofLetter? c with
  | none => unknown (String.ofList ['-', c])
  | some f =>
    if f.takesValue then
      match cs with
      | [] => flag f none
      | '=' :: value => flag f (some (String.ofList value))
      | value => flag f (some (String.ofList value))
    else flag f none

/-- The form of a word; a single hyphen is plain. -/
def classify (word : String) : Word :=
  match word.toList with
  | ['-', '-'] => separator
  | '-' :: '-' :: cs => ofLong cs
  | '-' :: c :: cs => ofShort c cs
  | _ => plain word

end Word

/-! ## Progress -/

/-- What is known after some words: the settings given so far, a setting whose value has not been
looked at, and whether only plain words may follow. -/
structure Progress where
  chosen : Chosen := .empty
  pending : Option (Setting × Option String) := none
  separated : Bool := false

namespace Progress

/-- Give a setting the value of a text; a setting is given once. -/
def choose (p : Progress) (s : Setting) (text : String) : Except UsageError Progress :=
  if (p.chosen s).isSome then .error (.repeated s)
  else
    match s.read text with
    | some v => .ok { p with chosen := p.chosen.set s v }
    | none => .error (.badValue s)

/-- Look at the value that is still pending. -/
def settle (p : Progress) : Except UsageError Progress :=
  match p.pending with
  | none => .ok p
  | some (s, none) => .error (.missingValue s)
  | some (s, some text) => { p with pending := none }.choose s text

/-- A flag, with the value attached to it. -/
def takeFlag (p : Progress) (f : Flag) (attached : Option String) : Except UsageError Progress :=
  match f, attached with
  | .setting s, none =>
    if s.isSwitch then do (← p.settle).choose s "true"
    else do .ok { ← p.settle with pending := some (s, none) }
  | .setting s, some text =>
    if s.isSwitch then .error (.unneededValue s.label) else do (← p.settle).choose s text
  | f, some _ => .error (.unneededValue f.label)
  | .help, none => do
    let _ ← p.settle
    .error .help
  | .version, none => do
    let _ ← p.settle
    .error .version

/-- The next word; after the separator, or unless a value is expected, no plain word is known. -/
def take (p : Progress) (word : String) : Except UsageError Progress :=
  if p.separated then .error (.unknown word)
  else
    match Word.classify word with
    | .separator => .ok { p with separated := true }
    | .flag f attached => p.takeFlag f attached
    | .unknown reported => .error (.unknown reported)
    | .plain text =>
      match p.pending with
      | some (s, none) => .ok { p with pending := some (s, some text) }
      | _ => .error (.unknown text)

end Progress

/-- The settings given on the command line. -/
def readWords (words : List String) : Except UsageError Chosen := do
  let p ← words.foldlM Progress.take {}
  return (← p.settle).chosen

/-! ## The environment -/

/-- The values of variables. -/
abbrev Environment : Type := String → Option String

/-- Take the variable of a setting that is not given; a switch that is neither on nor off lacks a
value. -/
def takeVariable (env : Environment) (given chosen : Chosen) (s : Setting) :
    Except UsageError Chosen :=
  match given s, env s.variableName with
  | none, some text =>
    match s.read text with
    | some v => .ok (chosen.set s v)
    | none => .error (if s.isSwitch then .missingValue s else .badValue s)
  | _, _ => .ok chosen

/-- Take the variables of all settings, in order. -/
def readVariables (env : Environment) (given : Chosen) : Except UsageError Chosen :=
  Setting.all.foldlM (takeVariable env given) given

/-- All settings of a command line in an environment. -/
def readSettings (words : List String) (env : Environment) : Except UsageError Settings := do
  let given ← readWords words
  let chosen ← readVariables env given
  return chosen.withDefaults

end BotFleet
