import CSharpStyle.Finding.Basic
import CSharpStyle.Finding.Failure
import CSharpStyle.Source.Line
import CSharpStyle.Workspace.FileSystem

/-!
# Path filters

A path filter decides which files take part in a run. Its patterns exclude paths, or include them again when
they begin with `!`, and the last pattern that matches decides. Files with further patterns can stand in the
directories that are walked; a pattern in a deeper directory overrules one above it.

* `FilterPattern.matchesPath`: a pattern matches a path when it matches the path itself or a directory that
  leads to it.
-/

namespace CSharpStyle

structure FilterPattern where
  glob : Glob
  /-- What matches is included again. -/
  includes : Bool
  /-- The pattern begins with a separator. -/
  isAnchored : Bool
  /-- The pattern ends with a separator, and does not match the file itself. -/
  directoriesOnly : Bool
  /-- The pattern describes whole paths and not single names. -/
  hasSeparator : Bool
  deriving DecidableEq, Repr, Inhabited

namespace FilterPattern

/-- The pattern without a `!` in front of it, and whether there is one. -/
def splitMark (pattern : List Char) : Bool × List Char :=
  match pattern with
  | '!' :: rest => (true, rest)
  | _ => (false, pattern)

/-- The text without separators at its ends. -/
def body (pattern : List Char) : List Char :=
  ((pattern.dropWhile (· == '/')).reverse.dropWhile (· == '/')).reverse

def parse (pattern : String) : Except PatternFailure FilterPattern :=
  let (includes, rest) := splitMark pattern.toList
  match Glob.parse (String.ofList (body rest)) with
  | .ok glob =>
    .ok
      { glob, includes, isAnchored := rest.head? == some '/', directoriesOnly := rest.getLast? == some '/'
        hasSeparator := (body rest).contains '/' }
  | .error error => .error ⟨pattern, error⟩

/-- The pattern describes whole paths. -/
def isWhole (f : FilterPattern) : Bool := f.isAnchored || f.hasSeparator

/-- The pattern matches one path, and not only a directory that leads to it. -/
def matchesExactly (f : FilterPattern) (p : Path) : Bool :=
  if f.isWhole then f.glob.matchesText (String.ofList (p.text.toList.map fun c => if c = '\\' then '/' else c))
  else p.fileName?.any f.glob.matchesText

/-- The paths that the pattern is compared with: the path itself and those of the directories that lead to it. -/
def candidates (f : FilterPattern) (p : Path) : List Path :=
  let paths := p.ancestors.filter fun q => !q.text.isEmpty
  if f.directoriesOnly then paths.tail else paths

def matchesPath (f : FilterPattern) (p : Path) : Bool := (f.candidates p).any f.matchesExactly

end FilterPattern

/-- Whether the last pattern that matches excludes the path. -/
def lastMatch? (patterns : List FilterPattern) (p : Path) : Option Bool :=
  (patterns.reverse.find? (·.matchesPath p)).map fun f => !f.includes

structure PathFilter where
  patterns : List FilterPattern
  /-- The name of files with further patterns, if there are to be any. -/
  ignoreFile : Option String
  deriving DecidableEq, Repr, Inhabited

namespace PathFilter

def ofPatterns (patterns : List String) (ignoreFile : Option String) : Except PatternFailure PathFilter := do
  .ok ⟨← patterns.mapM FilterPattern.parse, ignoreFile.filter (· != "")⟩

def withoutIgnoreFiles (f : PathFilter) : PathFilter := { f with ignoreFile := none }

/-- Adds a pattern that overrules the others. -/
def add (f : PathFilter) (pattern : String) : Except PatternFailure PathFilter := do
  .ok { f with patterns := f.patterns ++ [← FilterPattern.parse pattern] }

/-- The configured patterns exclude a path. -/
def excludes (f : PathFilter) (p : Path) : Bool := (lastMatch? f.patterns p).getD false

/-- The patterns in the text of an ignore file. Comments and lines that are no pattern do not count. -/
def patternsOf (text : String) : List FilterPattern :=
  ((linesOf text.toList).map trimmed).filterMap fun line =>
    if line.isEmpty || line.head? == some '#' then none else (FilterPattern.parse (String.ofList line)).toOption

/-- The patterns of the ignore file in a directory. -/
def patternsIn (fs : FileSystem) (directory : Path) (name : String) : Except Failure (List FilterPattern) :=
  let file := directory.join name
  if fs.isFile file then
    match fs.readText file with
    | .ok text => .ok (patternsOf text)
    | .error error => .error (.unreadableIgnoreFile file.text error)
  else .ok []

end PathFilter

/-- The patterns of the ignore files that have been read, by directory. A directory without an ignore file has none. -/
abbrev IgnoreCache := List (Path × List FilterPattern)

/-- The patterns of the ignore file in a directory, which is read when they are asked for the first time. -/
def IgnoreCache.patterns (cache : IgnoreCache) (fs : FileSystem) (directory : Path) (name : String) :
    Except Failure (List FilterPattern × IgnoreCache) :=
  match cache.find? (·.1.same directory) with
  | some (_, patterns) => .ok (patterns, cache)
  | none => do
    let patterns ← PathFilter.patternsIn fs directory name
    .ok (patterns, (directory, patterns) :: cache)

namespace PathFilter

/-- The directories from `root` down to the one that holds `p`. -/
def directoriesTo (root p : Path) : List Path := (p.ancestors.tail.takeWhile (·.isWithin root)).reverse

/-- What the ignore file in a directory makes of an answer. -/
def consult (fs : FileSystem) (name : String) (p : Path) (state : Bool × IgnoreCache) (directory : Path) :
    Except Failure (Bool × IgnoreCache) := do
  let (patterns, cache) ← state.2.patterns fs directory name
  .ok (((p.relativeTo? directory).bind (lastMatch? patterns)).getD state.1, cache)

/-- The ignore files from `root` down exclude a path. -/
def ignores (f : PathFilter) (fs : FileSystem) (root p : Path) (cache : IgnoreCache) :
    Except Failure (Bool × IgnoreCache) :=
  match f.ignoreFile with
  | none => .ok (false, cache)
  | some name => (directoriesTo root p).foldlM (consult fs name p) (false, cache)

/-- The file at `p` takes part in a run over `root`, in which some ignore files have been read before. -/
def selectsWith (f : PathFilter) (fs : FileSystem) (root p : Path) (cache : IgnoreCache) :
    Except Failure (Bool × IgnoreCache) := do
  if f.excludes ((p.relativeTo? root).getD p) then .ok (false, cache)
  else
    let (isIgnored, cache) ← f.ignores fs root p cache
    .ok (!isIgnored, cache)

/-- The file at `p` takes part in a run over `root`. -/
def selects (f : PathFilter) (fs : FileSystem) (root p : Path) : Except Failure Bool :=
  (f.selectsWith fs root p []).map (·.1)

/-- The path has the extension of source files. -/
def isSource (p : Path) : Bool := p.extension?.any fun e => e.toList.map Char.toLower == ['c', 's']

/-- The path of a file below `root` by the names that lead to it. -/
def below (root : Path) (names : List String) : Path := names.foldl Path.join root

/-- The source files below a directory, in the order in which it is walked. -/
def sourcesBelow (fs : FileSystem) (root : Path) : List Path := ((fs.filesBelow root).map (below root)).filter isSource

/-- Adds the next file of a walk if it takes part. -/
def findStep (f : PathFilter) (fs : FileSystem) (root : Path) (state : List Path × IgnoreCache) (p : Path) :
    Except Failure (List Path × IgnoreCache) := do
  let (isSelected, cache) ← f.selectsWith fs root p state.2
  .ok (if isSelected then state.1 ++ [p] else state.1, cache)

/-- The source files below `root` that take part in a run, in the order of their paths. Each ignore file is read
once. -/
def findFiles (f : PathFilter) (fs : FileSystem) (root : Path) : Except Failure (List Path) := do
  let (found, _) ← (sourcesBelow fs root).foldlM (f.findStep fs root) ([], [])
  .ok (sortBy Path.order found)

end PathFilter

end CSharpStyle
