/-
  How the daemon is invoked: options, then one command.

  An option takes a value, after it or behind an equals sign, and may be given
  once. One that is not given has the value of its environment variable, if that is
  set.

  * `Invocation.ofArgs` reads arguments;
  * `Invocation.config`: the effective configuration. Options win over the file.
-/
import LedgerGate.Config.Format

namespace LedgerGate

/-! ## Options and commands -/

/-- An option of the daemon. -/
inductive CommandOption where
  | config
  | dataDir
  | logFormat
  | logLevel
  deriving DecidableEq, Repr

namespace CommandOption

def all : List CommandOption := [config, dataDir, logFormat, logLevel]

def flag : CommandOption → String
  | config => "--config"
  | dataDir => "--data-dir"
  | logFormat => "--log-format"
  | logLevel => "--log-level"

/-- The environment variable that stands in for an option. -/
def variableName : CommandOption → String
  | config => "XLEDGER_CONFIG"
  | dataDir => "XLEDGER_DATA_DIR"
  | logFormat => "XLEDGER_LOG_FORMAT"
  | logLevel => "XLEDGER_LOG_LEVEL"

/-- Whether an option may have a value: paths are not empty, and a log format has to
    be known. -/
def accepts (o : CommandOption) (value : String) : Bool :=
  match o with
  | config => !value.isEmpty
  | dataDir => !value.isEmpty
  | logFormat => (LogFormat.parse value).toOption.isSome
  | logLevel => true

end CommandOption

/-- What the daemon is to do: serve requests, or print its configuration. -/
inductive Command where
  | run
  | config
  deriving DecidableEq, Repr

def Command.ofName? (s : String) : Option Command :=
  if s = "run" then some .run else if s = "config" then some .config else none

/-! ## Arguments -/

/-- Why arguments make no invocation; `help` was asked for. -/
inductive UsageError where
  | help
  | unexpected (arg : String)
  | missingValue (o : CommandOption)
  | badValue (o : CommandOption) (value : String)
  | repeated (o : CommandOption)
  | noCommand
  deriving DecidableEq, Repr

/-- What an invocation says: values of options, and a command. -/
structure Invocation where
  values : List (CommandOption × String)
  command : Command
  deriving Repr

namespace Invocation

def usage : String :=
  "Usage: xledger-daemon [--config FILE] [--data-dir DIR] [--log-format FORMAT] [--log-level LEVEL] run|config\n"

def asksHelp (arg : String) : Bool := arg = "-h" ∨ arg = "--help"

/-- Whether an argument looks like an option. -/
def isFlag (arg : String) : Bool := arg.startsWith "-" && arg ≠ "-"

/-- The value of an option. -/
def value? (values : List (CommandOption × String)) (o : CommandOption) : Option String :=
  (values.find? (·.1 == o)).map (·.2)

/-- Sets an option that was not set before. -/
def set (values : List (CommandOption × String)) (o : CommandOption) (value : String) :
    Except UsageError (List (CommandOption × String)) :=
  if (value? values o).isSome then .error (.repeated o)
  else if o.accepts value then .ok (values ++ [(o, value)])
  else .error (.badValue o value)

/-- The name of an option and the value behind an equals sign. -/
def cut (arg : String) : String × Option String :=
  match arg.splitOn "=" with
  | name :: v :: vs => (name, some ("=".intercalate (v :: vs)))
  | _ => (arg, none)

/-- A command with what follows it, which may only be the mark of the end of
    options. -/
def finish (values : List (CommandOption × String)) (c : Command) :
    List String → Except UsageError Invocation
  | [] => .ok ⟨values, c⟩
  | ["--"] => .ok ⟨values, c⟩
  | arg :: _ => .error (if asksHelp arg then .help else .unexpected arg)

/-- What asking for help comes to, with the command it is asked about. -/
def askHelp : List String → UsageError
  | [] => .help
  | "help" :: rest => askHelp rest
  | [arg] => if (Command.ofName? arg).isSome then .help else .unexpected arg
  | _ :: arg :: _ => .unexpected arg

/-- Reads arguments from the left. -/
def readArgs (values : List (CommandOption × String)) :
    List String → Except UsageError Invocation
  | [] => .error .noCommand
  | arg :: rest =>
    if asksHelp arg then .error .help
    else if arg = "help" then .error (askHelp rest)
    else if isFlag arg then
      match CommandOption.all.find? (·.flag == (cut arg).1), (cut arg).2, rest with
      | none, _, _ => .error (.unexpected arg)
      | some o, some value, rest => (set values o value).bind fun values => readArgs values rest
      | some o, none, [] => .error (.missingValue o)
      | some o, none, value :: rest =>
        if isFlag value then .error (.missingValue o)
        else (set values o value).bind fun values => readArgs values rest
    else
      match Command.ofName? arg with
      | some c => finish values c rest
      | none => .error (.unexpected arg)

/-- Sets an option from its environment variable unless it is set. -/
def standIn (env : String → Option String) (values : List (CommandOption × String))
    (o : CommandOption) : Except UsageError (List (CommandOption × String)) :=
  match value? values o, env o.variableName with
  | none, some value => set values o value
  | _, _ => .ok values

/-- The invocation that arguments and environment make. -/
def ofArgs (args : List String) (env : String → Option String) : Except UsageError Invocation := do
  let i ← readArgs [] args
  let values ← CommandOption.all.foldlM (standIn env) i.values
  return ⟨values, i.command⟩

/-! ## Configuration -/

/-- The configuration in a file, or the standard one. -/
def baseConfig (i : Invocation) (file : String → Option String) : Except Fault Config :=
  match value? i.values .config with
  | none => .ok {}
  | some path =>
    match (file path).bind Config.ofToml? with
    | some c => .ok c
    | none => .error (.config ("loading " ++ path))

/-- The configuration with the options of the invocation in it. -/
def override (i : Invocation) (c : Config) : Config :=
  { c with
    dataDir := (value? i.values .dataDir).getD c.dataDir
    logFormat :=
      ((value? i.values .logFormat).bind fun f => (LogFormat.parse f).toOption).getD c.logFormat
    logLevel := (value? i.values .logLevel).getD c.logLevel }

/-- The effective configuration, checked. -/
def config (i : Invocation) (file : String → Option String) : Except Fault Config :=
  match i.baseConfig file with
  | .error f => .error f
  | .ok c => (i.override c).validate.map fun _ => i.override c

end Invocation

end LedgerGate
