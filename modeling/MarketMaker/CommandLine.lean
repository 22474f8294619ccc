import MarketMaker.Config.Loading
import MarketMaker.Decimal.Standard
import MarketMaker.Json.Printer
import MarketMaker.Ledger.Summary
import MarketMaker.Session
/-!
The command line: running the strategy on paper, showing the ledger, and printing a preset. Here
arguments become a command and a command its result, without touching the world.
-/

namespace MarketMaker

inductive Command
  | run (preset : String) (config : Option String) (ticks : Option UInt64)
  | status (path : String) (limit : UInt64)
  | preset (name : String)
deriving DecidableEq

/-- An option of a command, which takes a value. -/
structure CommandOption where
  short : Char
  name : String
deriving DecidableEq

namespace CommandOption

/-- As it is shown in messages: the long form with the name of its value. -/
def shown (o : CommandOption) : String :=
  "--" ++ o.name ++ " <" ++ o.name.map Char.toUpper ++ ">"

end CommandOption

/-- Why arguments are not understood. -/
inductive UsageError
  | unknownCommand (word : String)
  | unexpected (word : String)
  | missingValue (option : CommandOption)
  | repeated (option : CommandOption)
  | badValue (option : CommandOption) (value reason : String)
deriving DecidableEq

namespace UsageError

def message : UsageError → String
  | unknownCommand word => "error: unrecognized subcommand '" ++ word ++ "'"
  | unexpected word => "error: unexpected argument '" ++ word ++ "' found"
  | missingValue o => "error: a value is required for '" ++ o.shown ++ "' but none was supplied"
  | repeated o => "error: the argument '" ++ o.shown ++ "' cannot be used multiple times"
  | badValue o value reason =>
    "error: invalid value '" ++ value ++ "' for '" ++ o.shown ++ "': " ++ reason

end UsageError

/-- Arguments of a command: the values of its options and the words that stand alone. -/
structure Arguments where
  values : List (CommandOption × String)
  words : List String

namespace Arguments

def value? (found : Arguments) (o : CommandOption) : Option String :=
  Table.get? o found.values

end Arguments

namespace CommandLine

def presetOption : CommandOption := ⟨'p', "preset"⟩
def configOption : CommandOption := ⟨'c', "config"⟩
def ticksOption : CommandOption := ⟨'t', "ticks"⟩
def pathOption : CommandOption := ⟨'d', "db"⟩
def limitOption : CommandOption := ⟨'l', "limit"⟩

/-- An argument: an option with or without a value attached, a word, or the mark behind which all
are words. -/
inductive Token
  | known (option : CommandOption) (value : Option String)
  | unknown (shown : String)
  | word (text : String)
  | endOfOptions

def token (options : List CommandOption) (text : String) : Token :=
  match text.toList with
  | ['-', '-'] => .endOfOptions
  | '-' :: '-' :: rest =>
    let name := String.ofList (rest.takeWhile (· != '='))
    let value := match rest.dropWhile (· != '=') with
      | [] => none
      | _ :: value => some (String.ofList value)
    match options.find? fun o => o.name = name with
    | some o => .known o value
    | none => .unknown ("--" ++ name)
  | '-' :: c :: rest =>
    match options.find? fun o => o.short = c with
    | some o =>
      match rest with
      | [] => .known o none
      | '=' :: value => .known o (some (String.ofList value))
      | value => .known o (some (String.ofList value))
    | none => .unknown (String.ofList ['-', c])
  | _ => .word text

/-- The value of an option is found: each option is given once. -/
def addValue (found : Arguments) (o : CommandOption) (value : String) :
    Except UsageError Arguments :=
  if (found.value? o).isSome then .error (.repeated o)
  else .ok { found with values := found.values ++ [(o, value)] }

def addWord (most : Nat) (found : Arguments) (word : String) : Except UsageError Arguments :=
  if found.words.length < most then .ok { found with words := found.words ++ [word] }
  else .error (.unexpected word)

/-- Reads arguments of a command that takes at most so many words; an option may be waiting for
its value. -/
def collect (options : List CommandOption) (most : Nat) :
    Option CommandOption → Arguments → List String → Except UsageError Arguments
  | none, found, [] => .ok found
  | some o, _, [] => .error (.missingValue o)
  | waiting, found, text :: rest =>
    match token options text, waiting with
    | .word word, some o => do collect options most none (← addValue found o word) rest
    | .word word, none => do collect options most none (← addWord most found word) rest
    | .unknown shown, _ => .error (.unexpected shown)
    | _, some o => .error (.missingValue o)
    | .known o (some value), none => do collect options most none (← addValue found o value) rest
    | .known o none, none => collect options most (some o) found rest
    | .endOfOptions, none => rest.foldlM (addWord most) found

/-- A count in the value of an option. -/
def count (o : CommandOption) (text : String) : Except UsageError UInt64 :=
  if text.isEmpty then .error (.badValue o text "cannot parse integer from empty string")
  else
    match Decimal.count? text.toList with
    | none => .error (.badValue o text "invalid digit found in string")
    | some n =>
      if n < twoTo 64 then .ok n.toUInt64
      else .error (.badValue o text "number too large to fit in target type")

/-- The command that the arguments give; without any the strategy is run. -/
def parse : List String → Except UsageError Command
  | [] => .ok (.run "default" none none)
  | "run" :: rest => do
    let found ← collect [presetOption, configOption, ticksOption] 0 none ⟨[], []⟩ rest
    let ticks ← (found.value? ticksOption).mapM (count ticksOption)
    return .run ((found.value? presetOption).getD "default") (found.value? configOption) ticks
  | "status" :: rest => do
    let found ← collect [pathOption, limitOption] 0 none ⟨[], []⟩ rest
    let limit ← (found.value? limitOption).mapM (count limitOption)
    return .status ((found.value? pathOption).getD "data/xemm_ledger.db") (limit.getD 10)
  | "preset" :: rest => do
    let found ← collect [] 1 none ⟨[], []⟩ rest
    return .preset (found.words.headD "default")
  | word :: _ =>
    match token [] word with
    | .word word => .error (.unknownCommand word)
    | .unknown shown => .error (.unexpected shown)
    | _ => .error (.unexpected word)

/-- A failure as it is reported when a command ends with it. -/
def failure (message : String) : String :=
  "Error: " ++ message

/-- The text of a preset. -/
def presetText (name : String) : Except String String :=
  match Preset.ofName? name with
  | some preset => .ok (preset.config.toJson.pretty ++ "\n")
  | none => .error (failure (Preset.unknownMessage name))

/-- The environment variables that stand for settings: section and key behind a mark, in capitals
and parted by two underscores. -/
def variableNames : List String :=
  (Settings.fieldsOf (some ({} : Config).toJson)).flatMap fun (name, fields) =>
    (Settings.fieldsOf (some fields)).map fun (key, _) =>
      (s!"XEMM__{name}__{key}").map Char.toUpper

/-- The configuration of a run. -/
def runConfig (preset : String) (file : ConfigFile) (environment : List (String × String)) :
    Except String Config :=
  match Preset.ofName? preset with
  | none => .error (failure (Preset.unknownMessage preset))
  | some preset =>
    match Config.load preset file environment with
    | .ok config => .ok config
    | .error e => .error (failure e.summary)

/-- The archive of a run, if its configuration asks for one. -/
def runArchive (config : Config) (store : ArchiveStore) : Except ConfigError (Option Archive) :=
  if config.archive.enabled then do
    let interval ← config.archive.flushInterval
    return some (.new config.archive.depth.toNat interval store)
  else .ok none

end CommandLine

end MarketMaker
