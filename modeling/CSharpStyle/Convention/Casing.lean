import CSharpStyle.Convention.Rule
import CSharpStyle.Unicode.CaseMapping
import CSharpStyle.Unicode.LetterCase

/-!
# Casing of names

A name is split into lowercase words at underscores and where the case changes, and put together again in the
casing that a rule asks for.
-/

namespace CSharpStyle.Casing

/-- A word ends in front of `c`: it is uppercase, and a lowercase letter or a digit comes before it or a
lowercase letter behind it. -/
def startsWord (previous : Option Char) (c : Char) (rest : List Char) : Bool :=
  Unicode.isUppercase c &&
    (previous.any (fun p => Unicode.isLowercase p || p.isDigit) || rest.head?.any Unicode.isLowercase)

/-- The word that was being read, unless it is empty. -/
def finished (word : List Char) : List (List Char) := if word.isEmpty then [] else [word]

/-- The words of a name behind `previous`, of which `word` is the beginning of the first. -/
def wordsFrom : Option Char → List Char → List Char → List (List Char)
  | _, word, [] => finished word
  | previous, word, c :: rest =>
    if c = '_' then finished word ++ wordsFrom (some c) [] rest
    else if !word.isEmpty && startsWord previous c rest then
      word :: wordsFrom (some c) (Unicode.toLowercase c) rest
    else wordsFrom (some c) (word ++ Unicode.toLowercase c) rest

/-- The lowercase words of a name. -/
def words (name : List Char) : List (List Char) := wordsFrom none [] name

def capitalize : List Char → List Char
  | [] => []
  | c :: rest => Unicode.toUppercase c ++ rest

def pascalCase (name : List Char) : List Char := (words name).flatMap capitalize

def camelCase (name : List Char) : List Char :=
  match words name with
  | [] => []
  | first :: others => first ++ others.flatMap capitalize

/-- The name without `start`, if it begins with it. -/
def without (start : List Char) (name : List Char) : List Char :=
  if start.isPrefixOf name then name.drop start.length else name

/-- The part of an interface's name behind its mark `I`, which an uppercase letter has to follow. -/
def withoutInterfaceMark : List Char → List Char
  | 'I' :: c :: rest => if Unicode.isUppercase c then c :: rest else 'I' :: c :: rest
  | name => name

/-- The spelling of a name that a naming rule suggests. -/
def conventional (rule : Rule) (name : List Char) : List Char :=
  match rule with
  | .interfacePrefix => 'I' :: pascalCase (withoutInterfaceMark name)
  | .typeParameterPrefix => 'T' :: pascalCase (without ['T'] name)
  | .camelCaseUnderscoreField => '_' :: camelCase name
  | .staticFieldPrefix => 's' :: '_' :: camelCase (without ['s', '_'] name)
  | .threadStaticFieldPrefix => 't' :: '_' :: camelCase (without ['t', '_'] name)
  | .camelCaseParameter => camelCase name
  | _ => pascalCase name

/-- The casing that a naming rule asks for, in words. -/
def expectation : Rule → String
  | .interfacePrefix => "PascalCase with an 'I' prefix"
  | .typeParameterPrefix => "PascalCase with a 'T' prefix"
  | .camelCaseUnderscoreField => "camelCase with a '_' prefix"
  | .staticFieldPrefix => "camelCase with an 's_' prefix"
  | .threadStaticFieldPrefix => "camelCase with a 't_' prefix"
  | .camelCaseParameter => "camelCase"
  | _ => "PascalCase"

end CSharpStyle.Casing
