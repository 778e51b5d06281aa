import LiveAudit.Disk
import LiveAudit.Settings
import LiveAudit.Json.Printer

/-!
# Stored settings

Settings are kept in a file of their own. Where there is none the defaults hold; what is read is
normalised, and what the command line says goes before what the file says.
-/

namespace LiveAudit.Settings

variable {m : Type → Type} [Monad m] [Disk m]

/-- Text of a file of settings. -/
def fileText (s : Settings) : String :=
  s.toValue.indented

/-- Reads the text of a file of settings. -/
def ofFile (bytes : List UInt8) : Except Trouble Settings :=
  match Text.ofUtf8? bytes with
  | none => .error ((Trouble.of (.file .notText)).during .readSettings)
  | some _ =>
    match format.parse bytes with
    | .ok s => .ok s.normalized
    | .error fault => .error ((Trouble.of (.json fault)).during .parseSettings)

/-- Settings at a path, the defaults if nothing is there. -/
def load (path : String) : ExceptT Trouble m Settings := do
  if ← (Disk.isThere path : m Bool) then
    let bytes ← Disk.within .readSettings (Disk.read path)
    ofFile bytes
  else return default

/-- Writes settings to a path as they are; the folder is made if it is missing. -/
def save (s : Settings) (path : String) : ExceptT Trouble m Unit := do
  if let some folder := Path.parent? path then
    Disk.within .makeSettingsFolder (Disk.makeFolders folder)
  Disk.within .writeSettings (Disk.write path (Text.utf8 s.fileText))

/-- Settings with a base address from the command line, if it gives one. -/
def overridden (s : Settings) (baseUrl : Option String) : Settings :=
  match baseUrl with
  | some url => { s with baseUrl := some url }
  | none => s

/-- Settings that hold for a command. -/
def effective (path : String) (baseUrl : Option String) : ExceptT Trouble m Settings := do
  let s ← (load path).adapt (·.during (.loadSettings path))
  return (s.overridden baseUrl).normalized

/-- The base address, which must be there. -/
def requireBaseUrl (s : Settings) : Except Trouble String :=
  match s.baseUrl with
  | some url => .ok url
  | none => .error (.of .noBaseUrl)

/-! ### Places -/

/-- Path of a folder of a user: what the environment says, if that is an absolute path, and a folder
in the home folder otherwise. -/
def userFolder (home : String) (given : Option String) (usual : String) : String :=
  match given with
  | some path => if path.toList.head? = some '/' then path else Path.join home usual
  | none => Path.join home usual

/-- Path of the settings, for a home folder and a folder of settings from the environment. -/
def defaultPath (home : String) (configHome : Option String) : String :=
  Path.join (userFolder home configHome ".config") "audit-watch/config.json"

end LiveAudit.Settings
