import MarkupLint.Config.Basic
import MarkupLint.Path

/-!
# Usage

What can be written on the command line: the commands, the options that each of them knows, and what
the user asks for by them. An option may be given to a command or, if the program itself knows it,
before the command.
-/

namespace MarkupLint.Cli

open Config

inductive CommandName where
  | check
  | init
  | list
deriving DecidableEq, Repr

def CommandName.all : List CommandName := [check, init, list]

def CommandName.word : CommandName → String
  | check => "check"
  | init => "init"
  | list => "list"

/-- The options that stand alone. -/
inductive Flag where
  | verbose
  | force
  | help
  | version
deriving DecidableEq, Repr

/-- The options that take a value. -/
inductive Setting where
  | color
  | format
  | config
deriving DecidableEq, Repr

inductive CommandOption where
  | flag (f : Flag)
  | setting (s : Setting)
deriving DecidableEq, Repr

/-- What stands after two dashes for an option. -/
def CommandOption.long : CommandOption → String
  | flag .verbose => "verbose"
  | flag .force => "force"
  | flag .help => "help"
  | flag .version => "version"
  | setting .color => "color"
  | setting .format => "format"
  | setting .config => "config"

/-- What stands after one dash for an option. -/
def CommandOption.short? : CommandOption → Option Char
  | flag .verbose => some 'v'
  | flag .force => none
  | flag .help => some 'h'
  | flag .version => some 'V'
  | setting .color => none
  | setting .format => some 'f'
  | setting .config => some 'c'

/-- The part of the command line that belongs to the program itself or to a command. -/
inductive Scope where
  | program
  | command (name : CommandName)
deriving DecidableEq, Repr

def sharedOptions : List CommandOption := [.setting .color, .flag .verbose, .flag .help]

def Scope.options : Scope → List CommandOption
  | program => .flag .version :: sharedOptions
  | command .check => .setting .format :: .setting .config :: sharedOptions
  | command .init => .flag .force :: sharedOptions
  | command .list => .setting .format :: .setting .config :: sharedOptions

/-- What a command has to do. -/
inductive Command where
  | check (roots : List Path) (format : Option OutputFormat) (config : Option Path)
  | init (force : Bool)
  | list (format : OutputFormat) (config : Option Path)
deriving DecidableEq, Repr

/-- What the user asks for. -/
structure Request where
  command : Command
  color : Option ColorChoice
  verbose : Bool
deriving DecidableEq, Repr

/-- Why no command is carried out. -/
inductive UsageError where
  | unknownCommand
  | unknownArgument
  | invalidValue
  /-- A value is given to an option that stands alone. -/
  | needlessValue
  /-- An option is given twice in the same scope. -/
  | repeatedOption
  | missingCommand
  /-- The command line is empty. -/
  | emptyLine
  | helpWanted
  | versionWanted
deriving DecidableEq, Repr

def version : String := "0.1.0"

def usageText : String := "Usage: marklint [OPTIONS] <COMMAND>

Commands:
  check [PATH]...  Check the files below the paths
  init             Write a default configuration
  list             List the rules

Options:
  --color <auto|always|never>
  -v, --verbose
  -f, --format <human|jsonl>  of check and list
  -c, --config <FILE>         of check and list
  --force                     of init
  -h, --help
  -V, --version
"

namespace UsageError

/-- The status with which the program ends. -/
def exitCode : UsageError → Nat
  | helpWanted => 0
  | versionWanted => 0
  | _ => 2

def message : UsageError → String
  | unknownCommand => "error: unrecognized subcommand\n"
  | unknownArgument => "error: unexpected argument\n"
  | invalidValue => "error: invalid value\n"
  | needlessValue => "error: unexpected value\n"
  | repeatedOption => "error: the argument cannot be used multiple times\n"
  | missingCommand => "error: a subcommand is required\n"
  | emptyLine => usageText
  | helpWanted => usageText
  | versionWanted => s!"marklint {version}\n"

end UsageError

end MarkupLint.Cli
