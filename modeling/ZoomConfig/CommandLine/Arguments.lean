import ZoomConfig.Decimal.Read
import ZoomConfig.EnvFile
import ZoomConfig.Mode
import ZoomConfig.Text.Basic
/-!
The arguments of the program.

Options have long names and take their values from the arguments behind them, or one from the same
argument behind an equals sign. What belongs to no option is the file. Some options fall back to a
variable of the environment.

Correspondence (program ↔ module):
  `Args` ↔ `Arguments` with `Arguments.parse`
-/
namespace ZoomConfig.CommandLine

/-- An option with values. -/
inductive Setting where
  | zoom
  | bounds
  | mode
  | logLevel
  | logFormat
  deriving DecidableEq, Repr

namespace Setting

/-- All options with values. -/
def all : List Setting := [.zoom, .bounds, .mode, .logLevel, .logFormat]

/-- The name behind the two hyphens. -/
def name : Setting → String
  | .zoom => "zoom"
  | .bounds => "bounds"
  | .mode => "mode"
  | .logLevel => "log-level"
  | .logFormat => "log-format"

/-- How many values it takes at least. -/
def least : Setting → Nat
  | .bounds => 4
  | _ => 1

/-- How many values it takes at most. -/
def most : Setting → Nat
  | .zoom => 2
  | .bounds => 4
  | _ => 1

/-- May a value be a number with a minus sign? -/
def allowsNegative (s : Setting) : Bool := s == .bounds

end Setting

/-- The variable for the mode. -/
def modeVariable : String := "CONFIG_CHECK_MODE"

/-- What was given. -/
structure Given where
  file : Option String
  zoom : Option (List Nat)
  bounds : Option (List Float)
  mode : Option String
  logLevel : Option String
  logFormat : Option String
  json : Bool

/-- Nothing. -/
def Given.nothing : Given := ⟨none, none, none, none, none, none, false⟩

/-- Why arguments do not ask for a report. -/
inductive Refusal where
  | help
  | invalid
  deriving DecidableEq, Repr

/-- A whole number, perhaps with a sign, below `2 ^ 32`. -/
def wholeNumber? (text : String) : Option Nat :=
  let (negative, digits) := Decimal.sign text.toList
  if digits.isEmpty || !digits.all Char.isDigit then none
  else
    let n := Decimal.digitsValue digits
    if n < Nat.pow 2 32 ∧ ¬ (negative ∧ n ≠ 0) then some n else none

/-- Does the text behind a hyphen make a negative number? Digits, after the first of them at most
one point and an exponent without a sign. -/
def isNumeral (cs : List Char) : Bool :=
  let (whole, rest) := Decimal.spanDigits cs
  let rest := match rest with
    | '.' :: rest => if whole.isEmpty then '.' :: rest else (Decimal.spanDigits rest).2
    | rest => rest
  match rest with
  | [] => true
  | 'e' :: digits => !whole.isEmpty && !digits.isEmpty && digits.all Char.isDigit
  | _ => false

/-- Sets an option that may be given once. -/
def setOnce (old : Option String) (value : List String) : Except Refusal (Option String) :=
  if old.isSome then .error .invalid else .ok value.head?

namespace Given

/-- Adds the values of an option. Zoom levels and bounds add up when they are given again. -/
def set (g : Given) (s : Setting) (values : List String) : Except Refusal Given :=
  if values.length < s.least ∨ s.most < values.length then .error .invalid
  else match s with
    | .zoom =>
      match values.mapM wholeNumber? with
      | some zooms => .ok { g with zoom := some (g.zoom.getD [] ++ zooms) }
      | none => .error .invalid
    | .bounds =>
      match values.mapM Decimal.read? with
      | some bounds => .ok { g with bounds := some (g.bounds.getD [] ++ bounds) }
      | none => .error .invalid
    | .mode => (setOnce g.mode values).map fun v => { g with mode := v }
    | .logLevel => (setOnce g.logLevel values).map fun v => { g with logLevel := v }
    | .logFormat => (setOnce g.logFormat values).map fun v => { g with logFormat := v }

/-- Adds the file, of which there is one, with a name. -/
def setFile (g : Given) (path : String) : Except Refusal Given :=
  if g.file.isSome ∨ path = "" then .error .invalid else .ok { g with file := some path }

/-- Adds the files behind the mark that ends the options. -/
def setFiles (g : Given) : List String → Except Refusal Given
  | [] => .ok g
  | path :: rest => do (← g.setFile path).setFiles rest

end Given

/-- An option that waits for values, and those it has. -/
abbrev Pending := Option (Setting × List String)

/-- Adds what an option has got. -/
def settle (g : Given) : Pending → Except Refusal Given
  | some (s, values) => g.set s values
  | none => .ok g

/-- What an argument looks like. -/
inductive Form where
  | endOfOptions
  | long (name : String) (value : Option String)
  | short (letters : List Char)
  | word

/-- The name of an option and the value behind an equals sign. -/
def splitValue (cs : List Char) : Form :=
  match cs.span (· ≠ '=') with
  | (name, _ :: value) => .long (String.ofList name) (some (String.ofList value))
  | (name, []) => .long (String.ofList name) none

/-- The form of an argument. A hyphen alone is a word. -/
def Form.of (arg : String) : Form :=
  match arg.toList with
  | ['-', '-'] => .endOfOptions
  | '-' :: '-' :: rest => splitValue rest
  | ['-'] => .word
  | '-' :: rest => .short rest
  | _ => .word

/-- Is the argument the next value of the option that waits? -/
def takes (p : Pending) (form : Form) : Bool :=
  match p with
  | none => false
  | some (s, values) =>
    values.length < s.most && match form with
      | .word => true
      | .short letters => s.allowsNegative && isNumeral letters
      | _ => false

/-- Reads arguments from left to right. -/
def read (g : Given) (p : Pending) : List String → Except Refusal Given
  | [] => settle g p
  | arg :: rest => do
    let form := Form.of arg
    if takes p form then
      read g (p.map fun (s, values) => (s, values ++ [arg])) rest
    else
      let g ← settle g p
      match form with
      | .endOfOptions => g.setFiles rest
      | .word => read (← g.setFile arg) none rest
      | .short letters => .error (if letters.head? = some 'h' then .help else .invalid)
      | .long name none =>
        if name = "help" then .error .help
        else if name = "json" then
          if g.json then .error .invalid else read { g with json := true } none rest
        else match Setting.all.find? (·.name = name) with
          | some s => read g (some (s, [])) rest
          | none => .error .invalid
      | .long name (some value) =>
        match Setting.all.find? (·.name = name) with
        | some s => read (← g.set s [value]) none rest
        | none => .error .invalid

/-- What the program is asked to do. -/
structure Arguments where
  file : String
  zoom : Option (List Nat)
  bounds : Option (List Float)
  mode : String
  json : Bool

/-- The arguments of a call, with what the environment adds to them. -/
def Arguments.parse {m : Type → Type} [Monad m] (env : EnvFile.Environment m)
    (args : List String) : m (Except Refusal Arguments) := do
  let fallback ← env.get? modeVariable
  return do
    let g ← read .nothing none args
    match g.file with
    | none => .error .invalid
    | some file =>
      return {
        file
        zoom := g.zoom
        bounds := g.bounds
        mode := (g.mode.or fallback).getD Mode.keep.name
        json := g.json }

end ZoomConfig.CommandLine
