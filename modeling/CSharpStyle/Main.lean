import CSharpStyle.CommandLine.Execution

/-!
# The program

What a command can look at is read into a snapshot, the command is carried out on the snapshot, and the file of
the cache is written when it differs from what was read.
-/

namespace CSharpStyle

/-- What a path leads to. The content of a file is read only where it can matter. -/
def findNode (isRead : Path → Bool) (p : Path) : IO (Option FileNode) := do
  try
    match (← (System.mkFilePath [p.text]).metadata).type with
    | .dir => return some .directory
    | .file =>
      if isRead p then return some (.file (← IO.FS.readBinFile p.text).toList)
      else return some (.file [])
    | _ => return none
  catch _ => return none

def isLink (p : Path) : IO Bool := do
  try
    match (← (System.mkFilePath [p.text]).symlinkMetadata).type with
    | .symlink => return true
    | _ => return false
  catch _ => return false

/-- Adds what a path leads to. A file that is already there is kept. -/
def findFile (isRead : Path → Bool) (fs : FileSystem) (p : Path) : IO FileSystem := do
  if fs.isFile p then return fs
  else
    match ← findNode isRead p with
    | some node => return fs.addFound p node
    | none => return fs

/-- Adds what a path leads to and what is below it. Links inside a directory are not followed. -/
partial def findTree (isRead : Path → Bool) (fs : FileSystem) (p : Path) : IO FileSystem := do
  let mut found ← findFile isRead fs p
  if found.isDirectory p then
    for entry in ← (System.mkFilePath [p.text]).readDir do
      let inner := p.join entry.fileName
      unless ← isLink inner do
        found ← findTree isRead found inner
  return found

/-- The time at which a new file is made. -/
def currentTime : IO Timestamp :=
  IO.FS.withTempFile fun _ file => do
    let time := (← file.metadata).modified
    return ⟨time.sec, time.nsec.toNat⟩

/-- All that a command can look at. -/
def snapshot (i : Invocation) (env : Environment) : IO FileSystem := do
  let names := ((← IO.currentDir).toString.splitOn "/").filter (· != "")
  let start := FileSystem.startingAt names
  let named ← (i.namedFiles start).foldlM (findFile fun _ => true) start
  let ignoreFile := ((i.settings named).toOption.bind (·.paths.ignoreFile)).getD ""
  let beside := i.roots.filterMap fun p => p.parent?.map (·.join ignoreFile)
  let isRead (p : Path) : Bool := PathFilter.isSource p || p.fileName? == some ignoreFile
  let ignoring ← beside.foldlM (findFile isRead) named
  let searched ← i.roots.foldlM (findTree isRead) ignoring
  (i.rememberedFiles env named).foldlM (findFile fun _ => false) searched

/-- Writes the file of the cache, or removes it, where the snapshots differ. -/
def saveChanges (i : Invocation) (before after : FileSystem) : IO Unit := do
  for file in i.cacheFile?.toList do
    unless before.lookup? file == after.lookup? file do
      match after.lookup? file with
      | some (.file bytes) =>
        for directory in file.parent?.toList do
          unless directory.text.isEmpty do
            IO.FS.createDirAll directory.text
        IO.FS.writeBinFile file.text ⟨bytes.toArray⟩
      | _ => IO.FS.removeFile file.text

def Output.write (output : Output) : IO UInt32 := do
  IO.print output.out
  IO.eprint output.err
  return UInt32.ofNat output.code

end CSharpStyle

open CSharpStyle in
def main (arguments : List String) : IO UInt32 := do
  match Invocation.ofArguments arguments with
  | .error stop => (Output.ofStop stop).write
  | .ok invocation =>
    let env : Environment := ⟨← currentTime, ← (← IO.getStdout).isTty, .never⟩
    let before ← snapshot invocation env
    let (output, after) := invocation.carryOut env before
    saveChanges invocation before after
    output.write
