-- The command line of the configuration check: what its arguments ask for, and what it answers.
import ControlBus.Config.Load
import ControlBus.Config.Report

namespace ControlBus.Cli

/-- How the effective configuration is shown. -/
inductive Format where
  | text
  | json
deriving Repr, DecidableEq

def Format.ofName? (name : String) : Option Format :=
  if name = "text" then some .text else if name = "json" then some .json else none

/-- What the options of a check say. -/
structure Options where
  config : Option String := none
  format : Option Format := none
  tables : List String := []
deriving Repr, DecidableEq

/-- What the arguments ask for. -/
inductive Request where
  | check (options : Options)
  | help
  | version
deriving Repr, DecidableEq

/-- Why arguments are refused. -/
inductive UsageError where
  | unexpected (argument : String)
  | missingValue (option : String)
  | invalidValue (option value : String)
  | repeated (option : String)
deriving Repr, DecidableEq

def UsageError.message : UsageError → String
  | unexpected argument => s!"unexpected argument '{argument}' found"
  | missingValue option => s!"a value is required for '{option}' but none was supplied"
  | invalidValue option value => s!"invalid value '{value}' for '{option}'"
  | repeated option => s!"the argument '{option}' cannot be used multiple times"

/-! ## Options -/

inductive Opt where
  | config | format | table | help | version
deriving Repr, DecidableEq

namespace Opt

def name : Opt → String
  | config => "--config"
  | format => "--format"
  | table => "--table"
  | help => "--help"
  | version => "--version"

/-- The option of a single letter. -/
def ofLetter? (c : Char) : Option Opt :=
  if c = 'c' then some config
  else if c = 't' then some table
  else if c = 'h' then some help
  else if c = 'V' then some version
  else none

def ofName? (name : String) : Option Opt :=
  [config, format, table, help, version].find? (·.name = name)

/-- What an option without a value asks for at once. -/
def request? : Opt → Option Request
  | help => some .help
  | version => some .version
  | _ => none

end Opt

/-- Give an option its value. Tables add up, the other options come once. -/
def Options.take (o : Options) (opt : Opt) (value : String) : Except UsageError Options :=
  match opt with
  | .config =>
    if value.isEmpty then .error (.missingValue opt.name)
    else if o.config.isSome then .error (.repeated opt.name)
    else .ok { o with config := some value }
  | .format =>
    if o.format.isSome then .error (.repeated opt.name)
    else
      match Format.ofName? value with
      | some f => .ok { o with format := some f }
      | none => .error (.invalidValue opt.name value)
  | .table => .ok { o with tables := o.tables ++ [value] }
  | _ => .error (.unexpected value)

/-! ## Arguments -/

/-- An argument by its form. -/
inductive Argument where
  /-- An option, and a value attached to it. -/
  | option (opt : Opt) (attached : Option String)
  /-- Only values may follow. -/
  | endOfOptions
  /-- It looks like an option and is none. -/
  | unknown
  | plain
deriving Repr, DecidableEq

/-- What is attached to the letter of an option, with or without an equals sign. -/
def attachedToLetter : List Char → Option String
  | [] => none
  | '=' :: value => some (String.ofList value)
  | value => some (String.ofList value)

/-- What is attached to the name of an option by an equals sign. -/
def attachedToName : List Char → Option String
  | '=' :: value => some (String.ofList value)
  | _ => none

def Argument.ofText (arg : String) : Argument :=
  match arg.toList with
  | ['-', '-'] => .endOfOptions
  | '-' :: '-' :: rest =>
    let (name, value) := rest.span (· ≠ '=')
    match Opt.ofName? (String.ofList ('-' :: '-' :: name)) with
    | some opt => .option opt (attachedToName value)
    | none => .unknown
  | '-' :: letter :: rest =>
    match Opt.ofLetter? letter with
    | some opt => .option opt (if opt.request?.isSome then none else attachedToLetter rest)
    | none => .unknown
  | _ => .plain

/-- Read arguments in order; the first that cannot be taken ends the reading, and so does a call
for help or the version. -/
def readArguments : Options → List String → Except UsageError Request
  | o, [] => .ok (.check o)
  | o, arg :: rest =>
    match Argument.ofText arg with
    | .plain | .unknown => .error (.unexpected arg)
    | .endOfOptions =>
      match rest with
      | [] => .ok (.check o)
      | extra :: _ => .error (.unexpected extra)
    | .option opt attached =>
      match opt.request?, attached with
      | some request, none => .ok request
      | some _, some value => .error (.unexpected value)
      | none, some value => do readArguments (← o.take opt value) rest
      | none, none =>
        match rest with
        | [] => .error (.missingValue opt.name)
        | value :: rest =>
          if Argument.ofText value = .plain then do readArguments (← o.take opt value) rest
          else .error (.missingValue opt.name)

/-- What the arguments ask for. -/
def Request.ofArguments (args : List String) : Except UsageError Request := readArguments {} args

/-! ## Answers -/

/-- What a run leaves behind. -/
structure Outcome where
  exitCode : UInt32
  stdout : String := ""
  stderr : String := ""
deriving Repr, DecidableEq

/-- Lines as text. -/
def unlines (lines : List String) : String := String.join (lines.map (· ++ "\n"))

def helpLines : List String := [
  "Validate bus configuration files",
  "",
  "Usage: config-validator [OPTIONS]",
  "",
  "Options:",
  "  -c, --config <CONFIG>  TOML configuration file; defaults only when omitted",
  "      --format <FORMAT>  Output format for the effective configuration [default: text] "
    ++ "[possible values: text, json]",
  "  -t, --table <TABLES>   Tables to show resolved channel settings for",
  "  -h, --help             Print help",
  "  -V, --version          Print version"]

/-- The effective configuration as the options want it. -/
def Options.shown (o : Options) (c : BusConfig) : List String :=
  match o.format.getD .text with
  | .text => c.summary o.tables
  | .json => [c.document]

/-- Check a configuration, `file` being the settings file that the options name. -/
def check (o : Options) (file : Option SettingsFile) (vars : List (String × String)) :
    Outcome :=
  match BusConfig.load file vars with
  | .ok c => { exitCode := 0, stdout := unlines (o.shown c ++ ["✅ Configuration valid"]) }
  | .error e =>
    { exitCode := 1,
      stderr := s!"❌ Configuration invalid: failed to load bus configuration: {e.message}\n" }

/-- Answer a command line; `read` gives the text of a file, if it is there. -/
def run (args : List String) (vars : List (String × String)) (read : String → Option String) :
    Outcome :=
  match Request.ofArguments args with
  | .error e => { exitCode := 2, stderr := s!"error: {e.message}\n" }
  | .ok .help => { exitCode := 0, stdout := unlines helpLines }
  | .ok .version => { exitCode := 0, stdout := "config-validator 0.1.0\n" }
  | .ok (.check o) => check o (o.config.map fun path => { path, text := read path }) vars

end ControlBus.Cli
