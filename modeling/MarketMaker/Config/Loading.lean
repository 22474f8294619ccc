import MarketMaker.Config.Json
import MarketMaker.Config.Validation
import MarketMaker.Json.Reader
/-!
Loading a configuration in layers: a preset, over it a file, over that the environment. Keys are
compared in lower case. Sections merge key by key; every other value replaces what it finds.
-/

namespace MarketMaker

/-- A step into nested settings. -/
inductive Step
  | key (name : String)
  | index (i : Nat)
deriving DecidableEq

namespace Settings

def isKeyChar (c : Char) : Bool :=
  c.isAlphanum || c == '_' || c == '-' || c == ' '

/-- A blank that may stand around the number of an index. -/
def isIndexBlank (c : Char) : Bool :=
  c == ' ' || c == '\t'

/-- The steps behind the first: `.name` or `[index]`, as long as they are well formed. -/
def moreSteps? : Nat → List Char → Option (List Step)
  | 0, _ => none
  | _ + 1, [] => some []
  | rounds + 1, '.' :: rest => do
    let name := rest.takeWhile isKeyChar
    if name.isEmpty then none
    else
      let steps ← moreSteps? rounds (rest.dropWhile isKeyChar)
      some (.key (String.ofList name) :: steps)
  | rounds + 1, '[' :: rest => do
    let inside := rest.dropWhile isIndexBlank
    let digits := inside.takeWhile Char.isDigit
    match (inside.dropWhile Char.isDigit).dropWhile isIndexBlank with
    | ']' :: rest =>
      let i ← Decimal.count? digits
      let steps ← moreSteps? rounds rest
      some (.index i :: steps)
    | _ => none
  | _ + 1, _ => none

/-- The path that a key stands for; a key of another form is a single step. -/
def pathOf (key : String) : List Step :=
  let chars := key.toList
  let name := chars.takeWhile isKeyChar
  let steps := if name.isEmpty then none else moreSteps? (chars.length + 1) (chars.dropWhile isKeyChar)
  match steps with
  | some steps => .key (String.ofList name) :: steps
  | none => [.key key]

/-- The fields of an object; none of anything else. -/
def fieldsOf : Option Json → List (String × Json)
  | some (.obj fields) => fields
  | _ => []

/-- The items of an array; none of anything else. -/
def itemsOf : Option Json → List Json
  | some (.arr items) => items
  | _ => []

/-- The array with `value` at `i`, filled up with nulls. -/
def setItem (i : Nat) (value : Json) (items : List Json) : List Json :=
  (items ++ List.replicate (i + 1 - items.length) Json.null).set i value

mutual

/-- A value over an old one. -/
def override (old : Option Json) : Json → Json
  | .obj fields => overrideFields (old.getD (.obj [])) fields
  | value => value

/-- Fields over an old value, which becomes an object with the first of them. -/
def overrideFields (old : Json) : List (String × Json) → Json
  | [] => old
  | (key, value) :: rest =>
    let fields := fieldsOf (some old)
    overrideFields (.obj (Table.put key (override (Table.get? key fields) value) fields)) rest

end

/-- A value over what a path leads to; whatever is missing on the way is made. -/
def overrideAt (old : Option Json) (value : Json) : List Step → Json
  | [] => override old value
  | .key name :: steps =>
    let fields := fieldsOf old
    .obj (Table.put name (overrideAt (Table.get? name fields) value steps) fields)
  | .index i :: steps =>
    let items := itemsOf old
    let item := if steps.isEmpty then value else overrideAt items[i]? value steps
    .arr (setItem i item items)

mutual

/-- Settings as they are kept: keys in lower case, whole numbers beyond a signed word rounded to
floating point. -/
def normalize : Json → Json
  | .int n => if n < twoTo 63 then .int n else .float n.toNat.toUInt64.toFloat
  | .arr items => .arr (normalizeItems items)
  | .obj fields => .obj (normalizeFields fields)
  | value => value

def normalizeItems : List Json → List Json
  | [] => []
  | item :: items => normalize item :: normalizeItems items

def normalizeFields : List (String × Json) → List (String × Json)
  | [] => []
  | (key, value) :: fields => (Json.lower key, normalize value) :: normalizeFields fields

end

/-- Entries over settings, each at the path of its key. -/
def layer (settings : Json) (entries : List (String × Json)) : Json :=
  entries.foldl (fun old entry => overrideAt (some old) entry.2 (pathOf entry.1)) settings

/-- The text behind `front`, if it starts with it. -/
def after? : List Char → List Char → Option (List Char)
  | [], text => some text
  | f :: front, c :: text => if f = c then after? front text else none
  | _ :: _, [] => none

/-- Two underscores in a row are a point. -/
def dotted : List Char → List Char
  | '_' :: '_' :: rest => '.' :: dotted rest
  | c :: rest => c :: dotted rest
  | [] => []

/-- The setting that an environment variable stands for, if its name starts as it should. -/
def ofVariable? (name value : String) : Option (String × Json) :=
  (after? "xemm__".toList (Json.lower name).toList).map fun rest =>
    (String.ofList (dotted rest), .str value)

end Settings

/-- A configuration file: none, one that is not there, or one with this text. -/
inductive ConfigFile
  | unused
  | missing
  | text (content : String)
deriving DecidableEq

/-- Why there is no configuration. -/
inductive LoadError
  | unreadable
  | misfit
  | invalid (e : ConfigError)
deriving DecidableEq

namespace LoadError

def summary : LoadError → String
  | unreadable => "Failed to build configuration"
  | misfit => "Failed to deserialize configuration"
  | invalid e => e.summary

end LoadError

namespace ConfigFile

/-- The settings of a file, which has to be a JSON object. -/
def entries : ConfigFile → Except LoadError (List (String × Json))
  | unused => .ok []
  | missing => .error .unreadable
  | text content =>
    match Json.ofText? content with
    | some (.obj fields) => .ok (Settings.normalizeFields fields)
    | _ => .error .unreadable

end ConfigFile

namespace Config

/-- The preset with a file and environment variables over it, if the outcome is valid. -/
def load (preset : Preset) (file : ConfigFile) (environment : List (String × String)) :
    Except LoadError Config := do
  let entries ← file.entries
  let settings := Settings.layer preset.config.toJson entries
  let settings := Settings.layer settings
    (environment.filterMap fun (name, value) => Settings.ofVariable? name value)
  match Config.ofJson? .lenient settings with
  | none => throw .misfit
  | some config =>
    match config.validate with
    | .ok () => return config
    | .error e => throw (.invalid e)

end Config

end MarketMaker
