import LeaseQueue.Config.Load
/-! Reading the command line: options before and after the name of a command, with a value that
stands alone or is attached. An option whose value stands alone is settled when the next option
appears, and only then is it an error that it has none or was given before. -/
namespace LeaseQueue.CommandLine

/-- How the reading ends when there is no command to run. -/
inductive UsageError where
  | help
  | version
  | helpForNothing
  | missingCommand
  | unknownCommand
  | unknownArgument
  | missingArgument
  | invalidValue
  | needlessValue
  | repeatedArgument
deriving DecidableEq

/-- Help and version are what was asked for; the rest are mistakes. -/
def UsageError.exitCode : UsageError → Nat
  | .help => 0
  | .version => 0
  | _ => 2

inductive Command where
  | run (config : String) (hang : Bool)
  | migrate (config : String)
deriving DecidableEq

/-- A command and how much it logs. -/
structure Invocation where
  command : Command
  logLevel : String
deriving DecidableEq

/-- Where the reading is: before the name of a command, or behind it. -/
inductive Level where
  | top
  | run
  | migrate
deriving DecidableEq

/-- Options that take a value. -/
inductive Valued where
  | logLevel
  | config
deriving DecidableEq

inductive Flag where
  | hang
  | help
  | version
deriving DecidableEq

inductive Choice where
  | valued (option : Valued)
  | flag (option : Flag)
deriving DecidableEq

/-- The options of a level with their long names and letters. -/
def choices (level : Level) : List (String × Option Char × Choice) :=
  [("log-level", some 'l', .valued .logLevel), ("help", some 'h', .flag .help)] ++
    match level with
    | .top => [("version", some 'V', .flag .version)]
    | .run => [("config", some 'c', .valued .config), ("hang", none, .flag .hang)]
    | .migrate => [("config", some 'c', .valued .config)]

def longChoice? (level : Level) (name : String) : Option Choice :=
  ((choices level).find? fun c => c.1 = name).map (·.2.2)

def shortChoice? (level : Level) (letter : Char) : Option Choice :=
  ((choices level).find? fun c => c.2.1 = some letter).map (·.2.2)

/-- How far the words of a level are read. -/
structure Progress where
  level : Level
  /-- The last option whose value stands alone, and the value if it came. -/
  last : Option (Valued × Option String)
  values : List (Valued × String)
  hang : Bool
  /-- Whether all further words are taken as they are. -/
  verbatim : Bool

namespace Progress

def start (level : Level) : Progress := ⟨level, none, [], false, false⟩

/-- Takes the value of an option. A path must not be empty. -/
def take (p : Progress) (option : Valued) (value : String) : Except UsageError Progress :=
  if (p.values.lookup option).isSome then .error .repeatedArgument
  else if option = .config ∧ value = "" then .error .invalidValue
  else .ok { p with values := p.values ++ [(option, value)] }

/-- Settles the last option whose value stands alone. -/
def settle (p : Progress) : Except UsageError Progress :=
  match p.last with
  | none => .ok p
  | some (_, none) => .error .invalidValue
  | some (option, some value) => { p with last := none }.take option value

/-- An option with its attached value, if there is one. -/
def choose (p : Progress) (choice : Choice) (attached : Option String) :
    Except UsageError Progress := do
  match choice, attached with
  | .flag _, some _ => throw .needlessValue
  | .flag .help, none => let _ ← p.settle; throw .help
  | .flag .version, none => let _ ← p.settle; throw .version
  | .flag .hang, none =>
    let p ← p.settle
    if p.hang then throw .repeatedArgument
    return { p with hang := true }
  | .valued option, some value => (← p.settle).take option value
  | .valued option, none => return { ← p.settle with last := some (option, none) }

/-- A word that begins with two dashes. -/
def long (p : Progress) (word : List Char) : Except UsageError Progress :=
  let name := word.takeWhile (· ≠ '=')
  let attached :=
    if name.length < word.length then some (String.ofList (word.drop (name.length + 1))) else none
  match longChoice? p.level (String.ofList name) with
  | none => .error .unknownArgument
  | some choice => p.choose choice attached

/-- A word that begins with one dash. What follows the letter of an option is its value; flags
with a letter end the reading whatever follows. -/
def short (p : Progress) (letter : Char) (rest : List Char) : Except UsageError Progress :=
  match shortChoice? p.level letter with
  | none => .error .unknownArgument
  | some (.flag option) => p.choose (.flag option) none
  | some (.valued option) =>
    match rest with
    | [] => p.choose (.valued option) none
    | '=' :: value => p.choose (.valued option) (some (String.ofList value))
    | value => p.choose (.valued option) (some (String.ofList value))

/-- Whether the next word may be the value of an option. -/
def awaits (p : Progress) : Bool := p.last.any fun o => o.2.isNone

/-- A word that belongs to nothing. -/
def stray (p : Progress) (word : String) : UsageError :=
  if p.level ≠ .top then .unknownArgument
  else if p.verbatim ∧ ["run", "migrate", "help"].contains word then .unknownArgument
  else .unknownCommand

/-- Reads one word that names no command. -/
def step (p : Progress) (word : String) : Except UsageError Progress :=
  if p.verbatim then .error (p.stray word)
  else
    match word.toList with
    | ['-', '-'] => .ok { p with verbatim := true }
    | '-' :: '-' :: rest => p.long rest
    | '-' :: letter :: rest => p.short letter rest
    | _ =>
      match p.last with
      | some (option, none) => .ok { p with last := some (option, some word) }
      | _ => .error (p.stray word)

/-- Whether a word at this place names a command if it is the name of one. -/
def mayName (p : Progress) : Bool := p.level = .top && !p.verbatim && !p.awaits

end Progress

/-- Reads the words behind the name of a command. -/
def readOptions (level : Level) (words : List String) : Except UsageError Progress := do
  (← words.foldlM Progress.step (.start level)).settle

def configVariable : String := "DIFFCALC_CONFIG"

/-- The path of the configuration, from the words or else from the environment. -/
def configPath (p : Progress) (env : Environment) : Except UsageError String :=
  match p.values.lookup .config with
  | some path => .ok path
  | none =>
    match env.lookup configVariable with
    | none => .error .missingArgument
    | some [] => .error .invalidValue
    | some path => .ok (Utf8.decodeLossy path)

def defaultLogLevel : String := "info"

/-- Reads a command and its options. Options in front of the name are settled last. -/
def readCommand (top : Progress) (env : Environment) (level : Level) (words : List String) :
    Except UsageError Invocation := do
  let p ← readOptions level words
  let config ← configPath p env
  let top ← top.settle
  let logLevel := ((p.values.lookup .logLevel).orElse fun _ => top.values.lookup .logLevel).getD
    defaultLogLevel
  return { command := if level = .run then .run config p.hang else .migrate config, logLevel }

/-- Help on commands that are named one by one. -/
def readHelp : List String → UsageError
  | [] => .help
  | word :: rest =>
    if ["run", "migrate", "help"].contains word ∧ rest = [] then .help else .unknownCommand

/-- The end of the words without a command. -/
def withoutCommand (top : Progress) : Except UsageError Invocation := do
  let top ← top.settle
  throw (if top.values = [] then .helpForNothing else .missingCommand)

/-- Reads the words in front of the name of a command and then the rest. -/
def readWords (env : Environment) (top : Progress) : List String → Except UsageError Invocation
  | [] => withoutCommand top
  | word :: rest =>
    if top.mayName ∧ word = "run" then readCommand top env .run rest
    else if top.mayName ∧ word = "migrate" then readCommand top env .migrate rest
    else if top.mayName ∧ word = "help" then .error (readHelp rest)
    else do readWords env (← top.step word) rest

/-- Reads the words that follow the name of the program. -/
def parse (words : List String) (env : Environment) : Except UsageError Invocation :=
  readWords env (.start .top) words

end LeaseQueue.CommandLine
