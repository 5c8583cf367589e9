import CSharpStyle.Source.Path
import CSharpStyle.Text.Utf8

/-!
# Files

A snapshot of files and directories. Names are resolved from the root or from the working directory, step by
step, and there are no links.
-/

namespace CSharpStyle

/-- What the operating system answers when a file cannot be used. -/
inductive FileError
  | notFound
  | alreadyExists
  | notDirectory
  | isDirectory
  | invalidText
  deriving DecidableEq, Repr, Inhabited

def FileError.message : FileError → String
  | notFound => "No such file or directory (os error 2)"
  | alreadyExists => "File exists (os error 17)"
  | notDirectory => "Not a directory (os error 20)"
  | isDirectory => "Is a directory (os error 21)"
  | invalidText => "stream did not contain valid UTF-8"

inductive FileNode
  | directory
  | file (bytes : List UInt8)
  deriving DecidableEq, Repr, Inhabited

structure FileSystem where
  /-- The names that lead from the root to the working directory. -/
  workingDirectory : List String
  /-- What is found where; the root is always a directory. -/
  nodes : List (List String × FileNode)
  deriving DecidableEq, Repr, Inhabited

namespace FileSystem

def node? (fs : FileSystem) (place : List String) : Option FileNode :=
  if place.isEmpty then some .directory else fs.nodes.lookup place

/-- Goes on from a directory by one piece of a path. -/
def step (fs : FileSystem) (place : List String) (piece : List Char) : Except FileError (List String) :=
  match fs.node? place with
  | some .directory =>
    if Path.isVoid piece then .ok place
    else if piece == ['.', '.'] then .ok place.dropLast
    else .ok (place ++ [String.ofList piece])
  | some (.file _) => .error .notDirectory
  | none => .error .notFound

/-- The place that a path leads to, where something need not exist. -/
def resolve (fs : FileSystem) (p : Path) : Except FileError (List String) :=
  if p.text.isEmpty then .error .notFound
  else p.pieces.foldlM fs.step (if p.isRooted then [] else fs.workingDirectory)

def lookup? (fs : FileSystem) (p : Path) : Option FileNode :=
  match fs.resolve p with
  | .ok place => fs.node? place
  | .error _ => none

def exists? (fs : FileSystem) (p : Path) : Bool := (fs.lookup? p).isSome

def isDirectory (fs : FileSystem) (p : Path) : Bool := fs.lookup? p == some .directory

def isFile (fs : FileSystem) (p : Path) : Bool :=
  match fs.lookup? p with
  | some (.file _) => true
  | _ => false

def read (fs : FileSystem) (p : Path) : Except FileError (List UInt8) := do
  let place ← fs.resolve p
  match fs.node? place with
  | some (.file bytes) => .ok bytes
  | some .directory => .error .isDirectory
  | none => .error .notFound

def readText (fs : FileSystem) (p : Path) : Except FileError String := do
  match Utf8.decode? (← fs.read p) with
  | some text => .ok text
  | none => .error .invalidText

/-- Puts a node in a place. -/
def put (fs : FileSystem) (place : List String) (node : FileNode) : FileSystem :=
  { fs with nodes := (place, node) :: fs.nodes.filter (·.1 != place) }

/-- Writes a file into a directory that exists. -/
def write (fs : FileSystem) (p : Path) (bytes : List UInt8) : Except FileError FileSystem := do
  let place ← fs.resolve p
  match fs.node? place, fs.node? place.dropLast with
  | some .directory, _ => .error .isDirectory
  | _, some .directory => .ok (fs.put place (.file bytes))
  | _, some (.file _) => .error .notDirectory
  | _, none => .error .notFound

/-- Goes on by one piece of a path and makes the directory that it names. -/
def makeStep (isLast : Bool) (state : FileSystem × List String) (piece : List Char) :
    Except FileError (FileSystem × List String) := do
  let place ← state.1.step state.2 piece
  match state.1.node? place with
  | some .directory => .ok (state.1, place)
  | some (.file _) => .error (if isLast then .alreadyExists else .notDirectory)
  | none => .ok (state.1.put place .directory, place)

/-- Makes a directory and those that lead to it. -/
def makeDirectories (fs : FileSystem) (p : Path) : Except FileError FileSystem := do
  let start := if p.isRooted then [] else fs.workingDirectory
  let pieces := Path.trimEnd p.isRooted p.pieces
  let before ← pieces.dropLast.foldlM (makeStep false) (fs, start)
  let after ← pieces.getLast?.toList.foldlM (makeStep true) before
  .ok after.1

/-- Removes a file. -/
def remove (fs : FileSystem) (p : Path) : Except FileError FileSystem := do
  let place ← fs.resolve p
  match fs.node? place with
  | some (.file _) => .ok { fs with nodes := fs.nodes.filter (·.1 != place) }
  | some .directory => .error .isDirectory
  | none => .error .notFound

/-- Removes a file, or a directory with all that is in it. -/
def removeAll (fs : FileSystem) (p : Path) : FileSystem :=
  match fs.resolve p with
  | .ok place => { fs with nodes := fs.nodes.filter fun (other, _) => !place.isPrefixOf other }
  | .error _ => fs

/-- The files in a directory and below it, with the names that lead to them from there. The path may also lead
to a file, which then is the only one. -/
def filesBelow (fs : FileSystem) (p : Path) : List (List String) :=
  match fs.resolve p with
  | .error _ => []
  | .ok place =>
    fs.nodes.filterMap fun (other, node) =>
      match node with
      | .file _ => if place.isPrefixOf other then some (other.drop place.length) else none
      | .directory => none

/-- A snapshot in which only the working directory and what leads to it exist. -/
def startingAt (workingDirectory : List String) : FileSystem :=
  { workingDirectory
    nodes := (List.range workingDirectory.length).map fun n => (workingDirectory.take (n + 1), .directory) }

/-- The place that a path names if all directories that lead to it exist. -/
def placeOf (fs : FileSystem) (p : Path) : List String :=
  let step (place : List String) (piece : List Char) :=
    if Path.isVoid piece then place
    else if piece == ['.', '.'] then place.dropLast
    else place ++ [String.ofList piece]
  p.pieces.foldl step (if p.isRooted then [] else fs.workingDirectory)

/-- Adds what has been found at a path, and the directories that lead to it. -/
def addFound (fs : FileSystem) (p : Path) (node : FileNode) : FileSystem :=
  let place := fs.placeOf p
  let parents := (List.range place.length).map fun n => place.take n
  let missing := parents.filter fun parent => (fs.node? parent).isNone
  (missing.foldl (fun fs parent => fs.put parent .directory) fs).put place node

end FileSystem

end CSharpStyle
