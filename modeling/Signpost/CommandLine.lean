import Signpost.Report
import Signpost.Settings
import Signpost.Store.Fixture

/-!
# The command line

The program dispatches one path against the route table of a settings file and reports how it went.
Arguments are read from left to right. The first one at fault ends the reading, and so does a call
for help; that something is missing, or does not go together, shows at the end.
-/

namespace Signpost.CommandLine

/-! ## Arguments -/

/-- Options that name a file. -/
inductive FileOption
  | settings
  | fixtures
  deriving DecidableEq, Repr

def FileOption.name : FileOption → String
  | settings => "--config <CONFIG>"
  | fixtures => "--fixtures <FIXTURES>"

inductive Switch
  | colour
  | plain
  | help
  | version
  deriving DecidableEq, Repr

inductive Argument
  | file (option : FileOption) (value : Option String)
  | switch (s : Switch)
  | path (text : String)
  /-- From here on every argument is a path. -/
  | endOfOptions
  | unknown
  deriving DecidableEq, Repr

namespace Argument

/-- An option by its name, with the value after an equals sign if there is one. -/
def long (name : String) (value : Option String) : Argument :=
  match name, value with
  | "config", value => file .settings value
  | "fixtures", value => file .fixtures value
  | "color", none => switch .colour
  | "no-color", none => switch .plain
  | "help", none => switch .help
  | "version", none => switch .version
  | _, _ => unknown

/-- The value in the same argument as the letter of its option. -/
def attached : List Char → Option String
  | [] => none
  | '=' :: cs => some (String.ofList cs)
  | cs => some (String.ofList cs)

/-- An option by its letter. -/
def short (letter : Char) (rest : List Char) : Argument :=
  match letter with
  | 'c' => file .settings (attached rest)
  | 'f' => file .fixtures (attached rest)
  | 'h' => switch .help
  | 'V' => switch .version
  | _ => unknown

def read (arg : String) : Argument :=
  match arg.toList with
  | ['-', '-'] => endOfOptions
  | '-' :: '-' :: cs =>
    match Text.splitFirst? '=' (String.ofList cs) with
    | some (name, value) => long name (some value)
    | none => long (String.ofList cs) none
  | '-' :: letter :: rest => short letter rest
  | _ => path arg

end Argument

/-! ## Requests -/

/-- Why there is no request. -/
inductive Stop
  | help
  | version
  | unexpected (arg : String)
  | repeated (option : String)
  | valueMissing (option : String)
  | conflict
  | missing (what : String)
  deriving DecidableEq, Repr

/-- What the arguments so far ask for. -/
structure Draft where
  settings : Option String := none
  fixtures : Option String := none
  colour : Bool := false
  plain : Bool := false
  path : Option String := none
  deriving DecidableEq, Repr

namespace Draft

/-- Names a file. Each option may be given once, and not with an empty name. -/
def setFile (d : Draft) (option : FileOption) (value : String) : Except Stop Draft :=
  if value.isEmpty then .error (.valueMissing option.name)
  else
    match option with
    | .settings =>
      if d.settings.isSome then .error (.repeated option.name)
      else .ok { d with settings := some value }
    | .fixtures =>
      if d.fixtures.isSome then .error (.repeated option.name)
      else .ok { d with fixtures := some value }

def turnOn (d : Draft) : Switch → Except Stop Draft
  | .colour => if d.colour then .error (.repeated "--color") else .ok { d with colour := true }
  | .plain => if d.plain then .error (.repeated "--no-color") else .ok { d with plain := true }
  | .help => .error .help
  | .version => .error .version

def setPath (d : Draft) (path : String) : Except Stop Draft :=
  if d.path.isSome then .error (.unexpected path) else .ok { d with path := some path }

/-- Reads arguments. The value of an option is the next argument if that is not an option. -/
def read (d : Draft) : List String → Except Stop Draft
  | [] => .ok d
  | arg :: args =>
    match Argument.read arg with
    | .path text => (d.setPath text).bind fun d => d.read args
    | .switch s => (d.turnOn s).bind fun d => d.read args
    | .file option (some value) => (d.setFile option value).bind fun d => d.read args
    | .file option none =>
      match args with
      | [] => .error (.valueMissing option.name)
      | next :: args =>
        match Argument.read next with
        | .path value => (d.setFile option value).bind fun d => d.read args
        | _ => .error (.valueMissing option.name)
    | .endOfOptions => args.foldlM setPath d
    | .unknown => .error (.unexpected arg)

end Draft

structure Request where
  settings : String
  fixtures : Option String
  coloured : Bool
  path : String
  deriving DecidableEq, Repr

def Request.read (args : List String) : Except Stop Request := do
  let d ← Draft.read {} args
  if d.colour ∧ d.plain then throw .conflict
  match d.settings, d.path with
  | some settings, some path =>
    return { settings, fixtures := d.fixtures, coloured := d.colour, path }
  | none, _ => throw (.missing (FileOption.name .settings))
  | _, none => throw (.missing "<PATH>")

/-! ## Answers -/

/-- How the program ends: its status, what it prints, and what it complains of. -/
structure Answer where
  status : Nat
  output : String := ""
  complaint : String := ""
  deriving DecidableEq, Repr

def helpLines : List String :=
  ["Dispatch a request path against a route table and print the trace",
   "",
   "Usage: resource-router [OPTIONS] --config <CONFIG> <PATH>",
   "",
   "Arguments:",
   "  <PATH>  Request path, e.g. `blog/hello-world`",
   "",
   "Options:",
   "  -c, --config <CONFIG>      Route table (TOML)",
   "  -f, --fixtures <FIXTURES>  Entries, categories, members and channels used to validate "
     ++ "captures (TOML)",
   "      --color                Force ANSI color output",
   "      --no-color             Disable ANSI color output",
   "  -h, --help                 Print help",
   "  -V, --version              Print version"]

def help : String := String.join (helpLines.map (· ++ "\n"))

def version : String := "resource-router 0.1.0\n"

def failed (status : Nat) (reason : String) : Answer :=
  { status, complaint := "error: " ++ reason ++ "\n" }

def Stop.answer : Stop → Answer
  | help => { status := 0, output := CommandLine.help }
  | version => { status := 0, output := CommandLine.version }
  | unexpected arg => failed 2 ("unexpected argument '" ++ arg ++ "' found")
  | repeated option => failed 2 ("the argument '" ++ option ++ "' cannot be used multiple times")
  | valueMissing option => failed 2 ("a value is required for '" ++ option ++ "'")
  | conflict => failed 2 "the argument '--color' cannot be used with '--no-color'"
  | missing what => failed 2 ("the required argument '" ++ what ++ "' was not provided")

/-- The route table of a settings file. -/
def tableOf (name : String) (contents : Option String) : Except Answer RouteTable :=
  match contents with
  | none => .error (failed 2 (name ++ ": cannot be read"))
  | some source =>
    match Settings.read source with
    | .error fault => .error (failed 2 (name ++ ": " ++ fault.message))
    | .ok settings => settings.toTable.mapError fun e => failed 2 (name ++ ": " ++ e.message)

/-- The store of a file of fixtures. -/
def storeOf (name : String) (contents : Option String) : Except Answer Store :=
  match contents with
  | none => .error (failed 2 (name ++ ": cannot be read"))
  | some source =>
    match MemoryStore.read source with
    | .error fault => .error (failed 2 (name ++ ": " ++ fault.message))
    | .ok m => .ok m.toStore

def dispatched (r : Request) (table : RouteTable) (store : Store) : Answer :=
  match (table.dispatch store r.path).result with
  | .error e => failed 1 ("dispatch failed: " ++ e.message)
  | .ok (d, metrics) => { status := 0, output := Report.text ⟨r.coloured⟩ r.path d metrics }

/-- Runs the program; `file` gives the contents of a file, if it can be read. -/
def run {m : Type → Type} [Monad m] (file : String → m (Option String)) (args : List String) :
    m Answer := do
  match Request.read args with
  | .error stop => return stop.answer
  | .ok r =>
    match tableOf r.settings (← file r.settings) with
    | .error answer => return answer
    | .ok table =>
      match r.fixtures with
      | none => return dispatched r table (MemoryStore.toStore {})
      | some name =>
        match storeOf name (← file name) with
        | .error answer => return answer
        | .ok store => return dispatched r table store

end Signpost.CommandLine
