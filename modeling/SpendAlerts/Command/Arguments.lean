import SpendAlerts.Decimal.Digits
import SpendAlerts.Worker

/-!
Command lines. Options stand before the command or after it, each with those it knows.
A value follows its option as the next argument, or after an equals sign, or directly
after a short option; an argument that starts with a dash is taken for an option unless
it is the dash alone. Every option may be given once, and two dashes end the options of
a command. State and settings have environment variables as well.
-/

namespace SpendAlerts

namespace Command

inductive Action where
  | importAlerts (path : String)
  | refresh (results : String) (options : Worker.Options)
  | digest (customerId : Option String) (options : Worker.Options)
  | pending (customerId : Option String)
  deriving DecidableEq, Repr

structure Invocation where
  stateDir : String
  settingsPath : Option String
  action : Action
  deriving DecidableEq, Repr

/-- Why a command line does not lead to an action. -/
inductive Stop where
  | usage
  | help
  | version
  deriving DecidableEq, Repr

structure OptionSpec where
  long : String
  short : Option Char
  takesValue : Bool

inductive Argument where
  | option (name value : String)
  | plain (text : String)

def looksLikeOption (s : String) : Bool :=
  match s.toList with
  | '-' :: _ :: _ => true
  | _ => false

/-- The value of an option that is not attached to it. -/
def nextValue (name : String) : List String → Except Stop (Argument × List String)
  | v :: rest => if looksLikeOption v then .error .usage else .ok (.option name v, rest)
  | [] => .error .usage

def splitAtEquals (s : List Char) : String × Option String :=
  let name := String.ofList (s.takeWhile (· ≠ '='))
  match s.dropWhile (· ≠ '=') with
  | _ :: value => (name, some (String.ofList value))
  | [] => (name, none)

def longOption (specs : List OptionSpec) (s : List Char) (rest : List String) :
    Except Stop (Argument × List String) :=
  let (name, value) := splitAtEquals s
  match specs.find? (·.long = name), value with
  | some spec, value =>
      match spec.takesValue, value with
      | true, some v => .ok (.option name v, rest)
      | true, none => nextValue name rest
      | false, none =>
          if name = "help" then .error .help
          else if name = "version" then .error .version
          else .ok (.option name "", rest)
      | false, some _ => .error .usage
  | none, _ => .error .usage

def shortOption (specs : List OptionSpec) (c : Char) (attached : List Char)
    (rest : List String) : Except Stop (Argument × List String) :=
  match specs.find? (·.short = some c) with
  | none => .error .usage
  | some spec =>
      if spec.takesValue then
        match attached with
        | [] => nextValue spec.long rest
        | '=' :: value => .ok (.option spec.long (String.ofList value), rest)
        | value => .ok (.option spec.long (String.ofList value), rest)
      else if spec.long = "help" then .error .help
      else if spec.long = "version" then .error .version
      else .error .usage

/-- Reads one argument, with its value if it has one. -/
def readArgument (specs : List OptionSpec) (s : String) (rest : List String) :
    Except Stop (Argument × List String) :=
  match s.toList with
  | '-' :: '-' :: name => longOption specs name rest
  | '-' :: c :: attached => shortOption specs c attached rest
  | _ => .ok (.plain s, rest)

/-- Option values by name, and the other arguments in order. -/
structure Parsed where
  values : List (String × String)
  plain : List String

def Parsed.addOption (p : Parsed) (name value : String) : Except Stop Parsed :=
  if (p.values.lookup name).isSome then .error .usage
  else .ok { p with values := (name, value) :: p.values }

/-- Reads all arguments of a command. -/
def readAll (specs : List OptionSpec) : Nat → Parsed → List String → Except Stop Parsed
  | 0, p, _ => .ok p
  | _, p, [] => .ok p
  | fuel + 1, p, s :: rest =>
      if s = "--" then .ok { p with plain := p.plain ++ rest }
      else do
        match ← readArgument specs s rest with
        | (.option name value, rest) => readAll specs fuel (← p.addOption name value) rest
        | (.plain text, rest) => readAll specs fuel { p with plain := p.plain ++ [text] } rest

/-- Reads options up to the name of a command, and gives the arguments after it. -/
def readUntilCommand (specs : List OptionSpec) :
    Nat → Parsed → List String → Except Stop (Parsed × String × List String)
  | 0, _, _ => .error .usage
  | _, _, [] => .error .usage
  | fuel + 1, p, s :: rest =>
      if s = "--" then .error .usage
      else do
        match ← readArgument specs s rest with
        | (.option name value, rest) =>
            readUntilCommand specs fuel (← p.addOption name value) rest
        | (.plain name, rest) => .ok (p, name, rest)

def helpOption : OptionSpec := ⟨"help", some 'h', false⟩

def mainOptions : List OptionSpec :=
  [⟨"state", some 's', true⟩, ⟨"config", some 'c', true⟩, ⟨"log-json", none, false⟩,
    helpOption, ⟨"version", some 'V', false⟩]

def workerOptions : List OptionSpec :=
  [⟨"workers", some 'w', true⟩, ⟨"max-attempts", none, true⟩]

def customerOption : OptionSpec := ⟨"customer", none, true⟩

/-- A path that is not empty. -/
def path (s : String) : Except Stop String :=
  if s = "" then .error .usage else .ok s

def workersValue (s : String) : Except Stop Nat :=
  match s.toList with
  | '-' :: _ => .error .usage
  | cs => match Decimal.readInt? cs with
    | some n => if n < UInt64.size then .ok n.toNat else .error .usage
    | none => .error .usage

def attemptsValue (s : String) : Except Stop Nat :=
  match Decimal.readInt? s.toList with
  | some n => if 0 ≤ n ∧ n < UInt32.size then .ok n.toNat else .error .usage
  | none => .error .usage

def Parsed.worker (p : Parsed) : Except Stop Worker.Options := do
  let workers ← match p.values.lookup "workers" with
    | some s => workersValue s
    | none => .ok 4
  let maxAttempts ← match p.values.lookup "max-attempts" with
    | some s => attemptsValue s
    | none => .ok 2
  .ok ⟨workers, maxAttempts⟩

def Parsed.onePath (p : Parsed) : Except Stop String :=
  match p.plain with
  | [s] => path s
  | _ => .error .usage

def Parsed.noPlain (p : Parsed) : Except Stop Unit :=
  if p.plain = [] then .ok () else .error .usage

def commandNames : List String := ["import", "refresh", "digest", "pending", "help"]

def readAction (name : String) (args : List String) : Except Stop Action :=
  let read (specs : List OptionSpec) := readAll (helpOption :: specs) args.length ⟨[], []⟩ args
  match name with
  | "import" => do
      let p ← read []
      .ok (.importAlerts (← p.onePath))
  | "refresh" => do
      let p ← read workerOptions
      let options ← p.worker
      .ok (.refresh (← p.onePath) options)
  | "digest" => do
      let p ← read (customerOption :: workerOptions)
      p.noPlain
      .ok (.digest (p.values.lookup "customer") (← p.worker))
  | "pending" => do
      let p ← read [customerOption]
      p.noPlain
      .ok (.pending (p.values.lookup "customer"))
  | "help" => match args with
    | [] => .error .help
    | [command] => if commandNames.contains command then .error .help else .error .usage
    | _ => .error .usage
  | _ => .error .usage

/-- The value of an option, or else of its environment variable. -/
def valueOr (p : Parsed) (name : String) (fallback : Option String) :
    Except Stop (Option String) :=
  match p.values.lookup name, fallback with
  | some s, _ => (path s).map some
  | none, some s => (path s).map some
  | none, none => .ok none

/-- Reads a command line; `env` gives the values of environment variables. -/
def readInvocation (env : String → Option String) (args : List String) :
    Except Stop Invocation := do
  let (p, name, rest) ← readUntilCommand mainOptions args.length ⟨[], []⟩ args
  let action ← readAction name rest
  let state ← valueOr p "state" (env "COSTWATCH_STATE")
  let settings ← valueOr p "config" (env "COSTWATCH_CONFIG")
  .ok ⟨state.getD ".costwatch", settings, action⟩

end Command

end SpendAlerts
