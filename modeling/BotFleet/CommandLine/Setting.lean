/-!
# The settings of a run

Each setting can be written on the command line, and otherwise comes from an environment variable or
has a default.

* `Setting`, `Setting.Value`: the settings and the values they take;
* `Setting.name`, `Setting.letter?`, `Setting.label`, `Setting.variableName`: how they are written;
* `Setting.read`: their values from a text;
* `Setting.default`;
* `Chosen`, `Settings`: values for some of the settings, and for all.
-/

namespace BotFleet

/-- The settings of a run, in the order in which their variables are looked at. -/
inductive Setting where
  | host
  | port
  | bots
  | gameVersion
  | gatewayPath
  | staggerMs
  | moveIntervalMs
  | moveDurationMs
  | chatIntervalMs
  | noBehavior
  | holdSecs
  | statusIntervalSecs
  | json
deriving DecidableEq, Inhabited

namespace Setting

/-- All settings, in order. -/
def all : List Setting := [
  host, port, bots, gameVersion, gatewayPath, staggerMs, moveIntervalMs, moveDurationMs,
  chatIntervalMs, noBehavior, holdSecs, statusIntervalSecs, json]

/-- The values of a setting. -/
def Value : Setting → Type
  | host | gameVersion | gatewayPath => String
  | port => UInt16
  | bots | staggerMs | moveIntervalMs | moveDurationMs | chatIntervalMs
  | statusIntervalSecs => UInt64
  | holdSecs => Option UInt64
  | noBehavior | json => Bool

/-- The value of a setting that is given nowhere. -/
def default : (s : Setting) → s.Value
  | host => "localhost"
  | port => (25565 : UInt16)
  | bots => (5 : UInt64)
  | gameVersion => "1.21.4"
  | gatewayPath => "/"
  | staggerMs => (2000 : UInt64)
  | moveIntervalMs => (2000 : UInt64)
  | moveDurationMs => (1000 : UInt64)
  | chatIntervalMs => (5000 : UInt64)
  | noBehavior => false
  | holdSecs => (none : Option UInt64)
  | statusIntervalSecs => (10 : UInt64)
  | json => false

/-- A setting that is written without a value. -/
def isSwitch : Setting → Bool
  | noBehavior | json => true
  | _ => false

/-! ## How settings are written -/

/-- The name of a setting on the command line, after two hyphens. -/
def name : Setting → String
  | host => "host"
  | port => "port"
  | bots => "bots"
  | gameVersion => "game-version"
  | gatewayPath => "gateway-path"
  | staggerMs => "stagger-ms"
  | moveIntervalMs => "move-interval-ms"
  | moveDurationMs => "move-duration-ms"
  | chatIntervalMs => "chat-interval-ms"
  | noBehavior => "no-behavior"
  | holdSecs => "hold-secs"
  | statusIntervalSecs => "status-interval-secs"
  | json => "json"

/-- The letter of a setting, after one hyphen. -/
def letter? : Setting → Option Char
  | port => some 'p'
  | bots => some 'n'
  | _ => none

/-- The name of a setting in capital letters. -/
def capitals (s : Setting) : String :=
  String.ofList (s.name.toList.map fun c => if c = '-' then '_' else c.toUpper)

/-- The variable of a setting. -/
def variableName (s : Setting) : String := "BOTSWARM_" ++ s.capitals

/-- How a setting is called in an error. -/
def label (s : Setting) : String :=
  if s.isSwitch then "--" ++ s.name else s!"--{s.name} <{s.capitals}>"

/-- The setting of a name. -/
def ofName? (name : String) : Option Setting := all.find? fun s => s.name = name

/-- The setting of a letter. -/
def ofLetter? (c : Char) : Option Setting := all.find? fun s => s.letter? = some c

/-! ## Reading values -/

/-- The value of a row of ASCII digits. -/
def digits? (cs : List Char) : Option Nat :=
  if cs.isEmpty || !cs.all Char.isDigit then none
  else some (cs.foldl (fun n c => 10 * n + (c.toNat - '0'.toNat)) 0)

/-- A number: digits, with or without a plus sign. -/
def number? (text : String) : Option Nat :=
  match text.toList with
  | '+' :: cs => digits? cs
  | cs => digits? cs

/-- A number that fits a word. -/
def word? (text : String) : Option UInt64 := do
  let n ← number? text
  if n < UInt64.size then some (UInt64.ofNat n) else none

/-- The number of a port; a zero may have a minus sign. -/
def port? (text : String) : Option UInt16 := do
  let n ← match text.toList with
    | '-' :: cs => do
      let n ← digits? cs
      if n = 0 then some 0 else none
    | _ => number? text
  if n < UInt16.size then some (UInt16.ofNat n) else none

/-- The value that a text stands for; a switch is on or off. -/
def read : (s : Setting) → String → Option s.Value
  | host, text | gameVersion, text | gatewayPath, text => some text
  | port, text => port? text
  | bots, text | staggerMs, text | moveIntervalMs, text | moveDurationMs, text
  | chatIntervalMs, text | statusIntervalSecs, text => word? text
  | holdSecs, text => (word? text).map some
  | noBehavior, text | json, text =>
    if text = "true" then some true else if text = "false" then some false else none

end Setting

/-! ## Values for settings -/

/-- Values for some of the settings. -/
def Chosen : Type := (s : Setting) → Option s.Value

namespace Chosen

def empty : Chosen := fun _ => none

/-- Give a setting a value. -/
def set (c : Chosen) (s : Setting) (v : s.Value) : Chosen := fun t =>
  if h : s = t then some (h ▸ v) else c t

end Chosen

/-- Values for all settings. -/
def Settings : Type := (s : Setting) → s.Value

/-- Settings that are given nowhere have their defaults. -/
def Chosen.withDefaults (c : Chosen) : Settings := fun s => (c s).getD s.default

end BotFleet
