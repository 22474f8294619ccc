import MarketMaker.Archive.Json
import MarketMaker.CommandLine
import MarketMaker.Ledger.Json
import Std.Time.DateTime.Timestamp
/-!
The program: carries out a command in the world of files, variables and the clock. The ledger and
the archive are JSON files, written after every tick.
-/

namespace MarketMaker

namespace Program

def now : IO Instant := do
  return ⟨(← Std.Time.Timestamp.now).toNanosecondsSinceUnixEpoch.val⟩

/-- The text of a file, if it can be read. -/
def contents? (path : String) : IO (Option String) := do
  try
    return some (← IO.FS.readFile path)
  catch _ =>
    return none

/-- Writes a file and makes the folder that it belongs to. -/
def write (path text : String) : IO Unit := do
  let folder := "/".intercalate (path.splitOn "/").dropLast
  unless folder.isEmpty do
    IO.FS.createDirAll folder
  IO.FS.writeFile path text

/-- What is kept in a file: none where there is no file, an error where it holds something else. -/
def stored? {α : Type} (read : Json → Option α) (path : String) : IO (Except String (Option α)) := do
  match ← contents? path with
  | none => return .ok none
  | some text =>
    match Json.ofText? text >>= read with
    | some x => return .ok (some x)
    | none => return .error (CommandLine.failure ("Failed to read " ++ path))

/-- The environment variables that are set and stand for settings. -/
def environment : IO (List (String × String)) := do
  let values ← CommandLine.variableNames.mapM fun name => do
    return (← IO.getEnv name).map fun value => (name, value)
  return values.reduceOption

def configFile : Option String → IO ConfigFile
  | none => return .unused
  | some path => do
    match ← contents? path with
    | some text => return .text text
    | none => return .missing

def keep (config : Config) (s : Session) : IO Unit := do
  write config.runtime.ledgerPath s.ledger.toJson.toText
  match s.archive with
  | some archive => write config.archive.path archive.store.toJson.toText
  | none => return ()

/-- Ticks at the configured interval, so often or for good. Arithmetic that leaves its range ends
the run. -/
partial def tickOn (config : Config) : Option Nat → Session → IO (Except String Session)
  | some 0, s => return .ok s
  | more, s => do
    match (Session.runTicks (← now) 1).run s with
    | .error e => return .error e.message
    | .ok ((), s) =>
      keep config s
      IO.sleep (min config.runtime.tickIntervalMs.toNat 4294967295).toUInt32
      tickOn config (more.map (· - 1)) s

def finish (config : Config) (s : Session) : IO (Except String Unit) := do
  match (Session.shutdown (← now)).run.run s with
  | .error e => return .error e.message
  | .ok (result, s) =>
    keep config s
    match result with
    | .ok () => return .ok ()
    | .error _ => return .error (CommandLine.failure "Failed to save state")

/-- A session that continues what is stored. -/
def start (config : Config) (ledger : Option Ledger) (store : Option ArchiveStore)
    (now : Instant) : Except ConfigError Session := do
  let archive ← CommandLine.runArchive config (store.getD .empty)
  Session.start config (ledger.getD .empty) archive now

def run (preset : String) (path : Option String) (ticks : Option UInt64) :
    ExceptT String IO Unit := do
  let file ← configFile path
  let config ← ExceptT.mk (return CommandLine.runConfig preset file (← environment))
  let ledger ← ExceptT.mk (stored? Ledger.ofJson? config.runtime.ledgerPath)
  let store ← ExceptT.mk (stored? ArchiveStore.ofJson? config.archive.path)
  match start config ledger store (← now) with
  | .error e => throw (CommandLine.failure e.summary)
  | .ok s =>
    let s ← ExceptT.mk (tickOn config (ticks.map fun n => max n.toNat 1) s)
    ExceptT.mk (finish config s)

def status (path : String) (limit : UInt64) : ExceptT String IO Unit := do
  let ledger ← ExceptT.mk (stored? Ledger.ofJson? path)
  match Ledger.summary path ledger limit.toNat (← now) with
  | .ok text => IO.print text
  | .error _ => throw (CommandLine.failure "Failed to read hedges")

def preset (name : String) : ExceptT String IO Unit := do
  IO.print (← ExceptT.mk (return CommandLine.presetText name))

def execute : Command → ExceptT String IO Unit
  | .run name path ticks => run name path ticks
  | .status path limit => status path limit
  | .preset name => preset name

end Program

end MarketMaker

/-- Ends with 2 if the arguments are not understood and with 1 if the command fails. -/
def main (args : List String) : IO UInt32 := do
  match MarketMaker.CommandLine.parse args with
  | .error e =>
    IO.eprintln e.message
    return 2
  | .ok command =>
    match ← (MarketMaker.Program.execute command).run with
    | .ok () => return 0
    | .error message =>
      IO.eprintln message
      return 1
