import CaseHarvest.Files.Access
import CaseHarvest.Json.Parser
import CaseHarvest.Settings.Fields
import CaseHarvest.Settings.Override
import CaseHarvest.Yaml.Document
/-!
Settings from a file, which is YAML if its extension says so and JSON otherwise. They are checked
before they are handed out.
-/
namespace CaseHarvest.Settings

/-- Settings as JSON text. -/
def ofJson? (text : String) : Option Settings := Json.parse? text >>= read Json.reader

/-- Settings as YAML text. -/
def ofYaml? (text : String) : Option Settings := do
  let doc ← Yaml.Document.parse? text
  read doc.reader doc.events

def yamlExtensions : List String := ["yaml", "yml"]

/-- Reads a file's text in the notation that the file's extension announces. -/
def ofText? (path text : String) : Option Settings :=
  if (Path.extension? path).any (· ∈ yamlExtensions) then ofYaml? text else ofJson? text

/-- The settings in a file, checked. -/
def load (files : FileTree) (cwd : Location) (path : String) : Except SettingsError Settings := do
  let bytes ← (files.read cwd path).mapError (SettingsError.read path)
  match bytes.toString? with
  | none => throw (.read path .notUtf8)
  | some text =>
    match ofText? path text with
    | none => throw (.parse path)
    | some settings =>
      settings.validate
      return settings

/-- The settings that a command line starts from: those in a file or the usual ones, with the engine
that the environment variable names. -/
def start (files : FileTree) (cwd : Location) (path : Option String) (engineVar : Option String) :
    Except SettingsError Settings := do
  let settings ← match path with
    | some path => load files cwd path
    | none => .ok {}
  return settings.withEngineVariable engineVar

end CaseHarvest.Settings
