import ArrayBridge.Configuration.Notation
import ArrayBridge.Engine.Start

/-! The settings of a runtime, and how a configuration text gives them.

A configuration is an object of named fields, or a list of the fields in their
order. Fields that are not given keep their initial values. -/

namespace ArrayBridge.Configuration

/-- The settings of a runtime. -/
structure Settings where
  home : Option String
  libraryPath : Option String
  preload : List String
  rootModule : String
  seed : Option UInt64
  deriving DecidableEq, Inhabited

namespace Settings

/-- The settings where nothing is configured. -/
def initial : Settings := ⟨none, none, [], EngineSettings.defaultRoot, none⟩

end Settings

/-- The fields of a configuration in their order. -/
inductive Field where
  | home
  | libraryPath
  | preload
  | rootModule
  | seed
  deriving DecidableEq, Inhabited

namespace Field

def name : Field → String
  | home => "home"
  | libraryPath => "lib_path"
  | preload => "preload"
  | rootModule => "root_module"
  | seed => "seed"

def all : List Field := [home, libraryPath, preload, rootModule, seed]

/-- The field of a name. -/
def ofName? (name : String) : Option Field := all.find? fun field => field.name = name

/-- Reads a path. -/
def readPath : Reader String := readText "path string"

/-- Reads the value of a field into settings. Only the directories and the seed may
be null. -/
def read (field : Field) (settings : Settings) (text : List Char) :
    Except Stop (Settings × List Char) := do
  match field with
  | home =>
    let (value, rest) ← readOptional readPath text
    return ({ settings with home := value }, rest)
  | libraryPath =>
    let (value, rest) ← readOptional readPath text
    return ({ settings with libraryPath := value }, rest)
  | preload =>
    let (value, rest) ← readList readPath text
    return ({ settings with preload := value }, rest)
  | rootModule =>
    let (value, rest) ← readText "a string" text
    return ({ settings with rootModule := value }, rest)
  | seed =>
    let (value, rest) ← readOptional readWordNumber text
    return ({ settings with seed := value.map Nat.toUInt64 }, rest)

end Field

/-- Reads the colon after the name of a field. -/
def readColon (text : List Char) : Except Stop (List Char) :=
  match skipSpace text with
  | [] => stopAtEnd .endOfObject
  | ':' :: rest => .ok rest
  | text => stopAt .expectedColon text

/-- Stops at a name that must not be there. The space after the name is skipped, and
so is a brace that ends the object. -/
def stopAtName {α : Type} (cause : Cause) (text : List Char) : Except Stop α :=
  match skipSpace text with
  | '\x7d' :: rest => stopBefore cause rest
  | text => stopBefore cause text

/-- Reads the name of a field that was not given yet, and the colon after it. -/
def readName (missing : List Field) (text : List Char) :
    Except Stop ({ field : Field // field ∈ missing } × List Char) := do
  let (chars, rest) ← match text with
    | '"' :: rest => readQuoted rest
    | text => stopAt .nameNotQuoted text
  let name := String.ofList chars
  match Field.ofName? name with
  | none => stopAtName (.unknownField name (Field.all.map Field.name)) rest
  | some field =>
    if h : field ∈ missing then return (⟨field, h⟩, ← readColon rest)
    else stopAtName (.repeatedField name) rest

/-- Reads the fields of an object from the first name on, up to and including the
closing brace. No field is given twice. -/
def readFields (missing : List Field) (settings : Settings) (text : List Char) :
    Except Stop (Settings × List Char) := do
  let (⟨field, _h⟩, rest) ← readName missing text
  let (settings, rest) ← field.read settings rest
  match skipSpace rest with
  | [] => stopAtEnd .endOfObject
  | '\x7d' :: rest => return (settings, rest)
  | ',' :: rest =>
    match skipSpace rest with
    | [] => stopAtEnd .endOfValue
    | '\x7d' :: rest => stopAt .trailingComma ('\x7d' :: rest)
    | text => readFields (missing.erase field) settings text
  | text => stopAt .expectedObjectEnd text
termination_by missing.length
decreasing_by
  rw [List.length_erase_of_mem _h]
  have := List.length_pos_of_mem _h
  omega

/-- Reads the settings of an object, after its opening brace. -/
def readNamed (text : List Char) : Except Stop (Settings × List Char) :=
  match skipSpace text with
  | [] => stopAtEnd .endOfObject
  | '\x7d' :: rest => .ok (.initial, rest)
  | text => readFields Field.all .initial text

/-- Reads the end of a list that has an item for every field. -/
def readListEnd (text : List Char) : Except Stop (List Char) :=
  match skipSpace text with
  | [] => stopAtEnd .endOfList
  | ']' :: rest => .ok rest
  | ',' :: rest =>
    match skipSpace rest with
    | ']' :: rest => stopAt .trailingComma (']' :: rest)
    | text => stopAt .trailingCharacters text
  | text => stopAt .trailingCharacters text

/-- Reads the settings of a list, after its opening bracket. Its items are the values
of the listed fields; the last ones may be missing. -/
def readOrdered (isFirst : Bool) : List Field → Settings → Reader Settings
  | [], settings, text => return (settings, ← readListEnd text)
  | field :: fields, settings, text => do
    match ← nextItem isFirst text with
    | .finished rest => return (settings, rest)
    | .item text =>
      let (settings, rest) ← field.read settings text
      readOrdered false fields settings rest

/-- What a configuration is, as messages name it. -/
def documentKind : String := "struct RuntimeConf"

/-- Reads the settings of a configuration. -/
def readDocument : Reader Settings := fun text =>
  match skipSpace text with
  | [] => stopAtEnd .endOfValue
  | '[' :: rest => readOrdered true Field.all .initial rest
  | '\x7b' :: rest => readNamed rest
  | text => refuse documentKind text

/-- Reads the settings of a configuration text. Nothing but white space may come
after the configuration. -/
def Settings.ofText (text : String) : Except Fault Settings :=
  match complete with
  | .ok settings => .ok settings
  | .error stop => .error ⟨stop.cause, .before text stop.left⟩
where
  complete : Except Stop Settings := do
    let (settings, rest) ← readDocument text.toList
    match skipSpace rest with
    | [] => return settings
    | rest => stopAt .trailingCharacters rest

end ArrayBridge.Configuration
