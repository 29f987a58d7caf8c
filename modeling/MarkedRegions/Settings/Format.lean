import MarkedRegions.Disk.Files
import MarkedRegions.Settings.Toml.Read
import MarkedRegions.Settings.Yaml.Node
import MarkedRegions.Text.Lowercase.Basic

/-!
# Settings files

The extension of a file, in any case, says in which format its settings are written. It is looked at
before the file is, so a file in no known format is never read.

## Main definitions

* `Format`: the formats
* `SettingsError`: why settings are not loaded
* `Settings.load`: the marker style that a file describes
-/

namespace MarkedRegions

/-- **Formats of settings.** -/
inductive Format
  | toml
  | json
  | yaml
deriving DecidableEq, Repr

namespace Format

/-- The format that an extension in lower case stands for. -/
def ofExtension? : String → Option Format
  | "toml" => some .toml
  | "json" => some .json
  | "yaml" | "yml" => some .yaml
  | _ => none

def name : Format → String
  | .toml => "TOML"
  | .json => "JSON"
  | .yaml => "YAML"

/-- The marker style that a text in a format describes. -/
def style? : Format → List Char → Option MarkerStyle
  | .toml => Toml.style?
  | .json => Json.style?
  | .yaml => Yaml.style?

end Format

/-- **Why settings are not loaded.** -/
inductive SettingsError
  | file (cause : FileError)
  -- The extension stands for no format.
  | unsupported (extension : String)
  -- The text is not written as it must be.
  | malformed (format : Format) (path : Path)
deriving DecidableEq, Repr

namespace SettingsError

/-- What has gone wrong, without what is missing in a text that can be read. -/
def headline : SettingsError → String
  | .file cause => cause.message
  | .unsupported extension => "Unsupported config format: " ++ extension
  | .malformed format path => "Failed to parse " ++ format.name ++ " config at " ++ path.text

/-- **The wording of settings that are not loaded.** -/
def message (e : SettingsError) : String :=
  match e with
  | .malformed .. =>
    e.headline ++ ": no table with a text for '" ++ String.ofList MarkerStyle.leadKey ++ "'"
  | .file _ | .unsupported _ => e.headline

end SettingsError

namespace Settings

variable {m : Type → Type} [Monad m] [Host m]

/-- The extension of a path in lower case, or nothing. -/
def extension (path : Path) : String :=
  Lowercase.text (Utf8.lossy (path.extension?.getD []))

/-- **The marker style that a file describes.** -/
def load (path : Path) : ExceptT SettingsError m MarkerStyle := do
  match Format.ofExtension? (extension path) with
  | none => throw (.unsupported (extension path))
  | some format =>
    let text ← (Files.readText path).adapt SettingsError.file
    match format.style? text with
    | none => throw (.malformed format path)
    | some style =>
      liftM (Host.report
        [⟨.debug, .settings, "Loaded config", [("path", path.text)]⟩] : m Unit)
      return style

end Settings

end MarkedRegions
