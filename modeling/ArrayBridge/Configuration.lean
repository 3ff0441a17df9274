import ArrayBridge.Bridge.Fault
import ArrayBridge.Configuration.Settings
import ArrayBridge.FileSystem
import ArrayBridge.Text.Blank

/-! The configuration of a runtime.

Settings come from a file, if the environment names one, and from variables of
the environment, which take precedence. -/

namespace ArrayBridge

namespace Configuration

/-- Reads the settings of a configuration text. -/
def ofText (text : String) : Except InitializationError Settings :=
  match Settings.ofText text with
  | .ok settings => .ok settings
  | .error fault => .error (.malformedConfiguration fault)

/-- Reads the settings of a configuration file. -/
def ofFile (files : FileSystem) (path : String) : Except InitializationError Settings :=
  match files.read path with
  | .ok text => ofText text
  | .error reason => .error (.configuration (path ++ ": " ++ reason))

/-- The variable that names a configuration file. -/
def fileVariable : String := "NUMBRIDGE_CONF"

/-- The variable that names the home directory. -/
def homeVariable : String := "NUMBRIDGE_HOME"

/-- The variable that names the directory of the libraries. -/
def libraryPathVariable : String := "NUMBRIDGE_LIB_PATH"

/-- The variable that holds the seed. -/
def seedVariable : String := "NUMBRIDGE_SEED"

/-- Reads a seed, which may have white space around it. -/
def readSeed (text : String) : Except InitializationError UInt64 :=
  match Natural.word? (Blank.trim text.toList) with
  | some seed => .ok seed
  | none => .error (.configuration (seedVariable ++ " is not an integer: " ++ text))

/-- Finds the settings that an environment and its files ask for. -/
def discover (files : FileSystem) (environment : String → Option String) :
    Except InitializationError Settings := do
  let settings ← match environment fileVariable with
    | some path => ofFile files path
    | none => pure Settings.initial
  let home := (environment homeVariable).or settings.home
  let libraryPath := (environment libraryPathVariable).or settings.libraryPath
  let seed ← match environment seedVariable with
    | some text => some <$> readSeed text
    | none => pure settings.seed
  return { settings with home, libraryPath, seed }

end Configuration

end ArrayBridge
