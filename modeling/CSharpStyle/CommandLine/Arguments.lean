/-!
# Arguments of a command line

Options are written with a long name or with a letter. A value follows its option, or is attached to it; flags
have none. What follows `--` and what does not begin with a hyphen is an operand.

* `ArgumentSyntax.read` reads arguments from left to right and stops at the first one that is not understood.
-/

namespace CSharpStyle

structure OptionSyntax where
  long : String
  letter : Option Char := none
  /-- What values are accepted; a flag accepts none. -/
  accepts : Option (String → Bool) := none
  /-- The option may be given several times. -/
  repeats : Bool := false

/-- Why a command line is not carried out as it stands. -/
inductive ArgumentStop
  | misuse
  | help
  | version
  deriving DecidableEq, Repr, Inhabited

structure ArgumentSyntax where
  options : List OptionSyntax
  /-- The number of operands, if it is limited. -/
  maxOperands : Option Nat := none
  acceptsOperand : String → Bool := fun _ => true
  /-- The first operand is the name of a command, and what follows belongs to it. -/
  endsAtOperand : Bool := false

/-- The options with their values, and the operands. -/
structure Arguments where
  options : List (String × String) := []
  operands : List String := []
  /-- What was not read because it belongs to a command. -/
  rest : List String := []
  deriving DecidableEq, Repr, Inhabited

namespace Arguments

def has (a : Arguments) (name : String) : Bool := a.options.any (·.1 == name)

def value? (a : Arguments) (name : String) : Option String := a.options.lookup name

/-- All values of an option in order. -/
def values (a : Arguments) (name : String) : List String := (a.options.filter (·.1 == name)).map (·.2)

end Arguments

namespace ArgumentSyntax

/-- Enters an option. Help and version end the reading. -/
def enter (a : Arguments) (o : OptionSyntax) (value : String) : Except ArgumentStop Arguments :=
  if o.long == "help" then .error .help
  else if o.long == "version" then .error .version
  else if a.has o.long && !o.repeats then .error .misuse
  else if o.accepts.all (· value) then .ok { a with options := a.options ++ [(o.long, value)] }
  else .error .misuse

def operand (s : ArgumentSyntax) (a : Arguments) (text : String) : Except ArgumentStop Arguments :=
  if s.maxOperands.any (· ≤ a.operands.length) || !s.acceptsOperand text then .error .misuse
  else .ok { a with operands := a.operands ++ [text] }

/-- The text begins with a hyphen and is more than that. -/
def isOption (text : String) : Bool :=
  match text.toList with
  | '-' :: _ :: _ => true
  | _ => false

/-- The letters behind a hyphen; an option that still waits for its value is returned. -/
def letters (s : ArgumentSyntax) : Arguments → List Char → Except ArgumentStop (Arguments × Option OptionSyntax)
  | a, [] => .ok (a, none)
  | a, c :: rest =>
    match s.options.find? (·.letter == some c) with
    | none => .error .misuse
    | some o =>
      if o.accepts.isNone then do letters s (← enter a o "") rest
      else
        match rest with
        | [] => .ok (a, some o)
        | '=' :: value => do .ok (← enter a o (String.ofList value), none)
        | value => do .ok (← enter a o (String.ofList value), none)

/-- A long option with what is attached to it; an option that still waits for its value is returned. -/
def long (s : ArgumentSyntax) (a : Arguments) (text : List Char) :
    Except ArgumentStop (Arguments × Option OptionSyntax) :=
  let name := text.takeWhile (· != '=')
  match s.options.find? (·.long == String.ofList name), text.drop name.length with
  | none, _ => .error .misuse
  | some o, [] => if o.accepts.isNone then do .ok (← enter a o "", none) else .ok (a, some o)
  | some o, _ :: value =>
    if o.accepts.isNone then .error .misuse else do .ok (← enter a o (String.ofList value), none)

/-- One argument that begins with a hyphen. -/
def option (s : ArgumentSyntax) (a : Arguments) (text : String) :
    Except ArgumentStop (Arguments × Option OptionSyntax) :=
  match text.toList with
  | '-' :: '-' :: name => s.long a name
  | _ :: cluster => s.letters a cluster
  | [] => .error .misuse

/-- Reads arguments behind those in `a`. -/
def readFrom (s : ArgumentSyntax) : Arguments → List String → Except ArgumentStop Arguments
  | a, [] => .ok a
  | a, text :: rest =>
    if text == "--" then rest.foldlM s.operand a
    else if isOption text then
      match s.option a text with
      | .error stop => .error stop
      | .ok (a, none) => readFrom s a rest
      | .ok (a, some o) =>
        match rest with
        | value :: rest =>
          if isOption value then .error .misuse
          else
            match enter a o value with
            | .ok a => readFrom s a rest
            | .error stop => .error stop
        | [] => .error .misuse
    else if s.endsAtOperand then .ok { a with rest := text :: rest }
    else
      match s.operand a text with
      | .ok a => readFrom s a rest
      | .error stop => .error stop

def read (s : ArgumentSyntax) (arguments : List String) : Except ArgumentStop Arguments :=
  s.readFrom {} arguments

end ArgumentSyntax

end CSharpStyle
