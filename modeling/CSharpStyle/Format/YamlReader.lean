import CSharpStyle.Format.JsonReader
import CSharpStyle.Format.Yaml

/-!
# Reading YAML

A document is read by descent. In block style the column of a key or of a dash decides how far a collection
reaches; inside brackets and braces columns do not count. Anchors, tags, explicit keys and block scalars are
refused.
-/

namespace CSharpStyle.YamlReader

/-- What is left of a text, and where it begins. -/
structure Place where
  rest : List Char
  line : Nat
  column : Nat
  deriving Repr, Inhabited

/-- All line breaks as line feeds. -/
def withLineFeeds : List Char → List Char
  | [] => []
  | '\r' :: '\n' :: rest => '\n' :: withLineFeeds rest
  | '\r' :: rest => '\n' :: withLineFeeds rest
  | '\u0085' :: rest => '\n' :: withLineFeeds rest
  | c :: rest => c :: withLineFeeds rest

/-- Control characters are not part of any document. -/
def isAllowed (c : Char) : Bool :=
  c == '\t' || c == '\n' || c == '\r' || (0x20 ≤ c.toNat && c.toNat ≤ 0x7E) || c.toNat == 0x85 ||
    (0xA0 ≤ c.toNat && c.toNat != 0xFFFE && c.toNat != 0xFFFF)

def isBlank (c : Char) : Bool := c == ' ' || c == '\t'

def isSpace (c : Char) : Bool := isBlank c || c == '\n'

/-- A blank, a line break or the end of the text. -/
def isGap (next : Option Char) : Bool := next.all isSpace

namespace Place

/-- Behind the first character. -/
def next (p : Place) : Place :=
  match p.rest with
  | [] => p
  | '\n' :: rest => ⟨rest, p.line + 1, 0⟩
  | _ :: rest => ⟨rest, p.line, p.column + 1⟩

def skip : Nat → Place → Place
  | 0, p => p
  | n + 1, p => skip n p.next

def head? (p : Place) : Option Char := p.rest.head?

/-- The character behind the next one. -/
def second? (p : Place) : Option Char := p.rest.tail.head?

/-- The three characters at the beginning of a line, with nothing behind them. -/
def startsWith (marker : List Char) (p : Place) : Bool :=
  p.column == 0 && marker.isPrefixOf p.rest && isGap (p.rest.drop 3).head?

def atDocumentStart (p : Place) : Bool := p.startsWith ['-', '-', '-']

def atDocumentEnd (p : Place) : Bool := p.startsWith ['.', '.', '.']

/-- The document ends here. -/
def atEnd (p : Place) : Bool := p.rest.isEmpty || p.atDocumentStart || p.atDocumentEnd

/-- An item of a sequence begins here. -/
def atDash (p : Place) : Bool := p.head? == some '-' && isGap p.second?

/-- A value may stand behind this place. -/
def atColon (p : Place) : Bool := p.head? == some ':' && isGap p.second?

/-- Behind blanks in the same line. -/
def skipBlanks (p : Place) : Place := p.skip (p.rest.takeWhile isBlank).length

end Place

/-- Behind blanks, line breaks and comments. A tab counts as a blank only where no key can begin. -/
def skipGaps : Nat → Bool → Place → Place
  | 0, _, p => p
  | n + 1, allowsTab, p =>
    match p.head? with
    | some ' ' => skipGaps n allowsTab p.next
    | some '\t' => if allowsTab then skipGaps n true p.next else p
    | some '\n' => skipGaps n false p.next
    | some '#' => skipGaps n allowsTab (p.skip (p.rest.takeWhile (· != '\n')).length)
    | _ => p

/-- The next token in block style. -/
def blockToken (allowsTab : Bool) (p : Place) : Place := skipGaps p.rest.length allowsTab p

/-- Behind blanks, line breaks and comments between brackets. -/
def skipFlowGaps : Nat → Place → Place
  | 0, p => p
  | n + 1, p =>
    match p.head? with
    | some '#' => skipFlowGaps n (p.skip (p.rest.takeWhile (· != '\n')).length)
    | some c => if isSpace c then skipFlowGaps n p.next else p
    | none => p

/-- The next token between brackets. -/
def flowToken (p : Place) : Place := skipFlowGaps p.rest.length p

/-! ## Scalars -/

/-- What blanks and line breaks inside a scalar stand for: one break is a blank, and each further one is
kept. -/
def folded (gap : List Char) : List Char :=
  match gap.count '\n' with
  | 0 => gap
  | 1 => [' ']
  | n + 1 => List.replicate n '\n'

def flowIndicators : List Char := [',', '[', ']', '\x7b', '\x7d']

/-- The characters of a plain scalar up to the next gap or indicator. -/
def plainWord (inFlow : Bool) : List Char → List Char
  | [] => []
  | c :: rest =>
    if isSpace c || (c == ':' && isGap rest.head?) || (inFlow && flowIndicators.contains c) then []
    else c :: plainWord inFlow rest

/-- Words of a plain scalar and the gaps between them. In block style its lines are indented by at least
`indent`. -/
def plain? : Nat → Bool → Nat → Place → Option (List Char × Place)
  | 0, _, _, _ => none
  | n + 1, inFlow, indent, p =>
    let word := plainWord inFlow p.rest
    let behind := p.skip word.length
    if inFlow && word.getLast? == some ':' && behind.head?.any flowIndicators.contains then none
    else
      let gap := behind.rest.takeWhile isSpace
      let follower := behind.skip gap.length
      if gap.isEmpty || follower.atEnd || follower.head? == some '#' || (!inFlow && follower.column < indent) ||
          (plainWord inFlow follower.rest).isEmpty then
        some (word, behind)
      else (plain? n inFlow indent follower).map fun (text, p) => (word ++ folded gap ++ text, p)

/-- A plain scalar can begin here. -/
def startsPlain (inFlow : Bool) (p : Place) : Bool :=
  match p.head? with
  | none => false
  | some c =>
    if isSpace c || YamlScalar.indicators.contains c then false
    else if c = '-' then !isGap p.second?
    else if c = '?' ∨ c = ':' then !inFlow && !isGap p.second?
    else true

/-- The text between single quotes, behind the first of them. -/
def singleQuoted? : Nat → Place → Option (List Char × Place)
  | 0, _ => none
  | n + 1, p =>
    if p.atDocumentStart || p.atDocumentEnd then none
    else
      match p.rest with
      | [] => none
      | '\x27' :: '\x27' :: _ => (singleQuoted? n (p.skip 2)).map fun (text, p) => ('\x27' :: text, p)
      | '\x27' :: _ => some ([], p.next)
      | c :: _ =>
        if isSpace c then
          let gap := p.rest.takeWhile isSpace
          (singleQuoted? n (p.skip gap.length)).map fun (text, p) => (folded gap ++ text, p)
        else (singleQuoted? n p.next).map fun (text, p) => (c :: text, p)

/-- The number of hexadecimal digits behind a letter. -/
def codeWidth? (letter : Char) : Option Nat :=
  match letter with
  | 'x' => some 2
  | 'u' => some 4
  | 'U' => some 8
  | _ => none

def escape? (letter : Char) : Option Char :=
  match letter with
  | '0' => some '\x00'
  | 'a' => some '\x07'
  | 'b' => some '\x08'
  | 't' | '\t' => some '\t'
  | 'n' => some '\n'
  | 'v' => some '\x0b'
  | 'f' => some '\x0c'
  | 'r' => some '\r'
  | 'e' => some '\x1b'
  | 'N' => some '\u0085'
  | '_' => some '\u00a0'
  | 'L' => some '\u2028'
  | 'P' => some '\u2029'
  | ' ' | '"' | '\x27' | '\\' | '/' => some letter
  | _ => none

/-- The character of a code point. -/
def character? (code : Nat) : Option Char := if code.isValidChar then some (Char.ofNat code) else none

/-- The text between double quotes, behind the first of them. -/
def doubleQuoted? : Nat → Place → Option (List Char × Place)
  | 0, _ => none
  | n + 1, p =>
    if p.atDocumentStart || p.atDocumentEnd then none
    else
      match p.rest with
      | [] => none
      | '"' :: _ => some ([], p.next)
      | '\\' :: '\n' :: rest =>
        let gap := rest.takeWhile isSpace
        (doubleQuoted? n (p.skip (2 + gap.length))).map fun (text, p) =>
          (List.replicate (gap.count '\n') '\n' ++ text, p)
      | '\\' :: letter :: rest =>
        match codeWidth? letter with
        | some width =>
          let digits := rest.take width
          if digits.length = width then do
            let c ← (JsonReader.hexNumber? digits).bind character?
            let (text, p) ← doubleQuoted? n (p.skip (2 + width))
            some (c :: text, p)
          else none
        | none => do
          let c ← escape? letter
          let (text, p) ← doubleQuoted? n (p.skip 2)
          some (c :: text, p)
      | c :: _ =>
        if isSpace c then
          let gap := p.rest.takeWhile isSpace
          (doubleQuoted? n (p.skip gap.length)).map fun (text, p) => (folded gap ++ text, p)
        else (doubleQuoted? n p.next).map fun (text, p) => (c :: text, p)

/-- A scalar, in quotes or plain. -/
def scalar? (inFlow : Bool) (indent : Nat) (p : Place) : Option (YamlScalar × Place) :=
  let size := p.rest.length + 1
  match p.head? with
  | some '"' => (doubleQuoted? size p.next).map fun (text, p) => (⟨String.ofList text, true⟩, p)
  | some '\x27' => (singleQuoted? size p.next).map fun (text, p) => (⟨String.ofList text, true⟩, p)
  | _ =>
    if startsPlain inFlow p then
      (plain? size inFlow indent p).map fun (text, p) => (⟨String.ofList text, false⟩, p)
    else none

/-! ## Collections between brackets -/

def nothing : Yaml := .scalar ⟨"", false⟩

/-- Behind the `:` that follows on the line on which a key began. -/
def behindFlowColon? (start behind : Place) : Option Place :=
  let token := flowToken behind
  if token.head? == some ':' && token.line == start.line then some token.next else none

mutual

/-- A value between brackets. -/
def flowNode? : Nat → Place → Option (Yaml × Place)
  | 0, _ => none
  | n + 1, p =>
    let token := flowToken p
    if token.atEnd then none
    else
      match token.head? with
      | some '[' => (flowItems? n token.next).map fun (items, p) => (.sequence items, p)
      | some '\x7b' => (flowEntries? n token.next).map fun (entries, p) => (.mapping entries, p)
      | _ => (scalar? true 0 token).map fun (s, p) => (.scalar s, p)

/-- What follows a `:` between brackets, if anything. -/
def flowValue? : Nat → Place → Option (Yaml × Place)
  | 0, _ => none
  | n + 1, p =>
    let token := flowToken p
    if token.head?.any fun c => c == ',' || c == ']' || c == '\x7d' then some (nothing, p)
    else flowNode? n token

/-- Items up to the closing bracket. An item with a `:` is a mapping with one entry. -/
def flowItems? : Nat → Place → Option (List Yaml × Place)
  | 0, _ => none
  | n + 1, p => do
    let token := flowToken p
    if token.head? == some ']' then some ([], token.next)
    else
      let (node, behind) ← flowNode? n token
      let (item, behind) ←
        match behindFlowColon? token behind, node with
        | some p, .scalar s => (flowValue? n p).map fun (value, p) => (.mapping [(s.text, value)], p)
        | some _, _ => none
        | none, _ => some (node, behind)
      let token := flowToken behind
      match token.head? with
      | some ',' => (flowItems? n token.next).map fun (items, p) => (item :: items, p)
      | some ']' => some ([item], token.next)
      | _ => none

/-- Entries up to the closing brace. -/
def flowEntries? : Nat → Place → Option (List (String × Yaml) × Place)
  | 0, _ => none
  | n + 1, p => do
    let token := flowToken p
    if token.head? == some '\x7d' then some ([], token.next)
    else if token.atEnd then none
    else
      let (key, behind) ← scalar? true 0 token
      let (value, behind) ←
        match behindFlowColon? token behind with
        | some p => flowValue? n p
        | none => some (nothing, behind)
      let token := flowToken behind
      match token.head? with
      | some ',' => (flowEntries? n token.next).map fun (entries, p) => ((key.text, value) :: entries, p)
      | some '\x7d' => some ([(key.text, value)], token.next)
      | _ => none

end

/-! ## Collections in blocks -/

/-- Behind the `:` that makes a key of what was read between two places. -/
def behindColon? (start behind : Place) : Option Place :=
  let token := behind.skipBlanks
  if token.atColon && behind.line == start.line then some token.next else none

/-- A key with its `:`. -/
def key? (p : Place) : Option (String × Place) := do
  let (s, behind) ← scalar? false 0 p
  let behind ← behindColon? p behind
  some (s.text, behind)

/-- Whether a collection at `column` goes on with the next token: `none` if the token is misplaced. -/
def goesOn? (column : Nat) (behind token : Place) : Option Bool :=
  if token.atEnd then some false
  else if token.line == behind.line then none
  else if token.column < column then some false
  else if token.column = column then some true
  else none

mutual

/-- The node behind `p` whose content is indented by at least `indent`. A collection can begin on the same line
only if `opens`. -/
def blockNode? : Nat → Nat → Bool → Place → Option (Yaml × Place)
  | 0, _, _, _ => none
  | n + 1, indent, opens, p =>
    let token := blockToken (!opens) p
    let canOpen := opens || token.line != p.line
    if token.atEnd || token.column < indent then some (nothing, p)
    else if token.atDash then
      if canOpen then (blockItems? n token.column false token).map fun (items, p) => (.sequence items, p)
      else none
    else do
      let (node, behind) ←
        if token.head? == some '[' || token.head? == some '\x7b' then flowNode? n token
        else (scalar? false indent token).map fun (s, p) => (.scalar s, p)
      if behind.skipBlanks.atColon then
        match node, behindColon? token behind, canOpen with
        | .scalar s, some p, true => do
          let (value, behind) ← blockValue? n token.column p
          let (entries, behind) ← blockEntries? n token.column behind
          some (.mapping ((s.text, value) :: entries), behind)
        | _, _, _ => none
      else some (node, behind)

/-- The value of a key at `column`. A sequence may stand right below its key. -/
def blockValue? : Nat → Nat → Place → Option (Yaml × Place)
  | 0, _, _ => none
  | n + 1, column, p =>
    let token := blockToken true p
    if token.line != p.line && token.column == column && token.atDash && !token.atEnd then
      (blockItems? n column true token).map fun (items, p) => (.sequence items, p)
    else blockNode? n (column + 1) false p

/-- The entries at `column` that follow an entry of a mapping. -/
def blockEntries? : Nat → Nat → Place → Option (List (String × Yaml) × Place)
  | 0, _, _ => none
  | n + 1, column, behind => do
    let token := blockToken true behind
    if ← goesOn? column behind token then
      let (key, p) ← key? token
      let (value, p) ← blockValue? n column p
      let (entries, p) ← blockEntries? n column p
      some ((key, value) :: entries, p)
    else some ([], behind)

/-- The items of a sequence, from a dash at `column` on. A sequence right below its key ends where the next key
begins. -/
def blockItems? : Nat → Nat → Bool → Place → Option (List Yaml × Place)
  | 0, _, _, _ => none
  | n + 1, column, isBelowKey, p => do
    let (item, behind) ← blockNode? n (column + 1) true p.next
    let token := blockToken true behind
    if ← goesOn? column behind token then
      if token.atDash then
        let (items, p) ← blockItems? n column isBelowKey token
        some (item :: items, p)
      else if isBelowKey then some ([item], behind)
      else none
    else some ([item], behind)

end

/-- Nothing but comments follows, or a line that ends the document. -/
def endsDocument (behind : Place) : Bool :=
  let token := blockToken true behind
  token.rest.isEmpty || (token.line != behind.line && token.atDocumentEnd && (flowToken (token.skip 3)).rest.isEmpty)

/-- The document that a text consists of; a text without content is an empty scalar. -/
def document? (text : List Char) : Option Yaml := do
  let start : Place := ⟨withLineFeeds text, 0, 0⟩
  let token := blockToken false start
  let size := 4 * text.length + 8
  if token.rest.isEmpty then some nothing
  else
    let (node, behind) ←
      if token.atDocumentStart then blockNode? size 0 false (token.skip 3) else blockNode? size 0 true start
    if endsDocument behind then some node else none

end CSharpStyle.YamlReader

namespace CSharpStyle

/-- The document that a text consists of. A byte order mark in front of it does not count. -/
def Yaml.parse? (text : String) : Option Yaml :=
  let chars :=
    match text.toList with
    | '\ufeff' :: rest => rest
    | chars => chars
  if chars.all YamlReader.isAllowed then YamlReader.document? chars else none

end CSharpStyle
