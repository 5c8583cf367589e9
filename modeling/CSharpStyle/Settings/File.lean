import CSharpStyle.Settings.Document
import CSharpStyle.Workspace.FileSystem

/-!
# Settings files

Settings come from a file that is named, or from the first of some files with usual names in a directory, or
are the default settings.
-/

namespace CSharpStyle.Settings

def ofFile (fs : FileSystem) (file : Path) : Except Failure Settings :=
  match fs.readText file with
  | .error e => .error (.unreadableSettings file.text e)
  | .ok text =>
    match read? text with
    | none => .error (.malformedSettingsFile file.text)
    | some s => s.validate.map fun _ => { s with source := some file }

/-- The first file in a directory that has one of the usual names. -/
def findFile? (fs : FileSystem) (directory : Path) : Option Path :=
  (defaultFileNames.map directory.join).find? fs.isFile

/-- The settings in the named file, else in a file of the directory, else the default settings. -/
def discover (fs : FileSystem) (named : Option Path) (directory : Path) : Except Failure Settings :=
  match named.orElse fun _ => findFile? fs directory with
  | some file => ofFile fs file
  | none => .ok {}

end CSharpStyle.Settings
