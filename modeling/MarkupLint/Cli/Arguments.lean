import MarkupLint.Cli.Usage
import MarkupLint.Text.Split

/-!
# Arguments

The words of a command line are read from left to right. A setting waits for its value, which is
looked at only when the next option, path or the end of the scope is reached; so of two mistakes the
one that is seen first counts. After the word `--` every word is a path.
-/

namespace MarkupLint.Cli

open Config

abbrev Word := List Char

/-- What was given in a scope. -/
structure Given where
  color : Option ColorChoice := none
  format : Option OutputFormat := none
  config : Option Path := none
  flags : List Flag := []
  roots : List Path := []
  /-- The setting that was read last, with its value once that is known. -/
  pending : Option (Setting × Option Word) := none

namespace Given

/-- A setting waits for its value. -/
def awaits (g : Given) : Bool :=
  match g.pending with
  | some (_, none) => true
  | _ => false

def isEmpty (g : Given) : Bool :=
  g.color.isNone && g.format.isNone && g.config.isNone && g.flags.isEmpty && g.roots.isEmpty

/-- Gives a setting its value. -/
def assign (g : Given) (s : Setting) (value : Word) : Except UsageError Given :=
  match s with
  | .color =>
    if g.color.isSome then .error .repeatedOption
    else
      match ColorChoice.all.find? (·.name.toList == value) with
      | some c => .ok { g with color := some c }
      | none => .error .invalidValue
  | .format =>
    if g.format.isSome then .error .repeatedOption
    else
      match OutputFormat.all.find? (·.name.toList == value) with
      | some f => .ok { g with format := some f }
      | none => .error .invalidValue
  | .config =>
    if g.config.isSome then .error .repeatedOption
    else if value.isEmpty then .error .invalidValue
    else .ok { g with config := some (.ofText value) }

/-- Takes the setting that is pending into account. -/
def settle (g : Given) : Except UsageError Given :=
  match g.pending with
  | none => .ok g
  | some (_, none) => .error .invalidValue
  | some (s, some value) => Given.assign { g with pending := none } s value

def set (g : Given) (s : Setting) (value : Word) : Except UsageError Given := do
  (← g.settle).assign s value

/-- A setting that waits for its value. -/
def await (g : Given) (s : Setting) : Except UsageError Given := do
  return { ← g.settle with pending := some (s, none) }

/-- The value of the setting that waits for it. -/
def supply (g : Given) (value : Word) : Given :=
  { g with pending := g.pending.map fun p => (p.1, some value) }

def raise (g : Given) (f : Flag) : Except UsageError Given := do
  let g ← g.settle
  match f with
  | .help => .error .helpWanted
  | .version => .error .versionWanted
  | f => if f ∈ g.flags then .error .repeatedOption else .ok { g with flags := g.flags ++ [f] }

def addRoot (g : Given) (value : Word) : Except UsageError Given := do
  let g ← g.settle
  return { g with roots := g.roots ++ [.ofText value] }

end Given

/-! ## Options -/

/-- What is an option by the way it is written. -/
inductive OptionWord where
  /-- Two dashes and a name, then a value if an equals sign follows. -/
  | long (name : Word) (value : Option Word)
  /-- One dash and letters. -/
  | short (letters : Word)
deriving DecidableEq, Repr

/-- Cuts a word at its first equals sign. -/
def longOption (s : Word) : OptionWord :=
  match s.dropWhile (· ≠ '=') with
  | [] => .long s none
  | _ :: value => .long (s.takeWhile (· ≠ '=')) (some value)

/-- The option that a word is; a single dash is none. -/
def optionWord? : Word → Option OptionWord
  | '-' :: '-' :: s => if s.isEmpty then none else some (longOption s)
  | '-' :: c :: s => some (.short (c :: s))
  | _ => none

/-- Reads an option that is written with its name. -/
def readLong (scope : Scope) (g : Given) (name : Word) (value : Option Word) :
    Except UsageError Given :=
  match scope.options.find? (·.long.toList == name), value with
  | none, _ => .error .unknownArgument
  | some (.flag f), none => g.raise f
  | some (.flag _), some _ => .error .needlessValue
  | some (.setting s), none => g.await s
  | some (.setting s), some value => g.set s value

/-- Reads options that are written as letters; what follows the letter of a setting is its value,
after an equals sign if there is one. -/
def readShort (scope : Scope) (g : Given) : Word → Except UsageError Given
  | [] => .ok g
  | c :: rest =>
    match scope.options.find? (·.short? == some c) with
    | none => .error .unknownArgument
    | some (.flag f) => do readShort scope (← g.raise f) rest
    | some (.setting s) =>
      match rest with
      | [] => g.await s
      | '=' :: value => g.set s value
      | value => g.set s value

def readOption (scope : Scope) (g : Given) : OptionWord → Except UsageError Given
  | .long name value => readLong scope g name value
  | .short letters => readShort scope g letters

/-! ## Scopes -/

/-- The word after which all words are paths. -/
def endOfOptions : Word := ['-', '-']

/-- The word that asks for help on a command. -/
def helpWord : Word := "help".toList

/-- The command that a word names. -/
def command? (w : Word) : Option CommandName := CommandName.all.find? (·.word.toList == w)

/-- What comes of a request for help on some words. -/
def helpOn : List Word → UsageError
  | [] => .helpWanted
  | [w] => if w = helpWord ∨ (command? w).isSome then .helpWanted else .unknownCommand
  | _ => .unknownCommand

/-- Reads a word that is neither an option nor the value of one. -/
def readOperand (scope : Scope) (pathsOnly : Bool) (g : Given) (w : Word) :
    Except UsageError Given :=
  match scope with
  | .program =>
    if pathsOnly ∧ (w = helpWord ∨ (command? w).isSome) then .error .unknownArgument
    else .error .unknownCommand
  | .command .check => g.addRoot w
  | .command _ => .error .unknownArgument

/-- Reads the words of a scope after which only paths follow. -/
def readOperands (scope : Scope) (g : Given) : List Word → Except UsageError Given
  | [] => .ok g
  | w :: ws => do readOperands scope (← readOperand scope true g w) ws

/-- Reads the words of a scope, up to the word for a command if the scope is the program. -/
def readWords (scope : Scope) (g : Given) :
    List Word → Except UsageError (Given × Option (CommandName × List Word))
  | [] => .ok (g, none)
  | w :: ws =>
    if scope = .program ∧ !g.awaits ∧ w = helpWord then .error (helpOn ws)
    else
      match if scope = .program ∧ !g.awaits then command? w else none with
      | some c => .ok (g, some (c, ws))
      | none =>
        if w = endOfOptions then do return (← readOperands scope g ws, none)
        else
          match optionWord? w with
          | some o => do readWords scope (← readOption scope g o) ws
          | none =>
            if g.awaits then readWords scope (g.supply w) ws
            else do readWords scope (← readOperand scope false g w) ws

/-! ## Requests -/

def defaultRoots : List Path := [.ofString "."]

/-- What a command has to do, by what was given to it. -/
def Given.command (g : Given) : CommandName → Command
  | .check => .check (if g.roots.isEmpty then defaultRoots else g.roots) g.format g.config
  | .init => .init (.force ∈ g.flags)
  | .list => .list (g.format.getD .human) g.config

/-- Reads a command line. What is given to a command counts more than what stands before it. -/
def readRequest (ws : List Word) : Except UsageError Request := do
  let (outer, rest) ← readWords .program {} ws
  match rest with
  | none =>
    let outer ← outer.settle
    .error (if outer.isEmpty then .emptyLine else .missingCommand)
  | some (c, ws) =>
    let (inner, _) ← readWords (.command c) {} ws
    let inner ← inner.settle
    let outer ← outer.settle
    return {
      command := inner.command c
      color := inner.color <|> outer.color
      verbose := .verbose ∈ inner.flags ∨ .verbose ∈ outer.flags }

end MarkupLint.Cli
