import CSharpStyle.Declaration.Role
import CSharpStyle.Finding.Severity

/-!
# Rules

The conventions that can be checked, with their names, default severities and descriptions. Naming rules
apply to the declarations of one role and have a pattern, which settings can replace.
-/

namespace CSharpStyle

inductive Rule
  | pascalCaseType
  | interfacePrefix
  | pascalCasePublicMember
  | camelCaseUnderscoreField
  | staticFieldPrefix
  | threadStaticFieldPrefix
  | camelCaseParameter
  | varApparentType
  | explicitForeachType
  | usingOutsideNamespace
  | shortCircuitOperator
  | oneStatementPerLine
  | oneDeclarationPerLine
  | pascalCaseConstant
  | pascalCasePrivateMember
  | typeParameterPrefix
  deriving DecidableEq, Repr, Inhabited

/-- What a rule inspects. -/
inductive RuleTarget
  | role (role : Role)
  | usingDirectives
  | declarationGroups
  /-- The tokens alone, which exist also for a file whose structure was not read. -/
  | tokens
  deriving DecidableEq, Repr, Inhabited

def RuleTarget.text : RuleTarget → String
  | role r => s!"{r.text} declarations"
  | usingDirectives => "using directives"
  | declarationGroups => "comma-separated declarations"
  | tokens => "token stream"

namespace Rule

/-- All rules, in the order in which they are run and listed. -/
def all : List Rule :=
  [pascalCaseType, interfacePrefix, pascalCasePublicMember, camelCaseUnderscoreField, staticFieldPrefix,
   threadStaticFieldPrefix, camelCaseParameter, varApparentType, explicitForeachType, usingOutsideNamespace,
   shortCircuitOperator, oneStatementPerLine, oneDeclarationPerLine, pascalCaseConstant,
   pascalCasePrivateMember, typeParameterPrefix]

def name : Rule → String
  | pascalCaseType => "PascalCaseType"
  | interfacePrefix => "InterfacePrefix"
  | pascalCasePublicMember => "PascalCasePublicMember"
  | camelCaseUnderscoreField => "CamelCaseUnderscoreField"
  | staticFieldPrefix => "StaticFieldPrefix"
  | threadStaticFieldPrefix => "ThreadStaticFieldPrefix"
  | camelCaseParameter => "CamelCaseParameter"
  | varApparentType => "VarApparentType"
  | explicitForeachType => "ExplicitForeachType"
  | usingOutsideNamespace => "UsingOutsideNamespace"
  | shortCircuitOperator => "ShortCircuitOperator"
  | oneStatementPerLine => "OneStatementPerLine"
  | oneDeclarationPerLine => "OneDeclarationPerLine"
  | pascalCaseConstant => "PascalCaseConstant"
  | pascalCasePrivateMember => "PascalCasePrivateMember"
  | typeParameterPrefix => "TypeParameterPrefix"

def ofName? (name : String) : Option Rule := all.find? (·.name == name)

/-- The severity of the rule's violations unless the settings choose another. -/
def defaultSeverity : Rule → Severity
  | varApparentType | explicitForeachType | oneStatementPerLine | oneDeclarationPerLine => .info
  | _ => .warning

/-- The role whose names a naming rule checks. -/
def role? : Rule → Option Role
  | pascalCaseType => some .typeName
  | interfacePrefix => some .interfaceName
  | pascalCasePublicMember => some .publicMember
  | camelCaseUnderscoreField => some .privateField
  | staticFieldPrefix => some .staticField
  | threadStaticFieldPrefix => some .threadStaticField
  | camelCaseParameter => some .parameter
  | pascalCaseConstant => some .constant
  | pascalCasePrivateMember => some .privateMember
  | typeParameterPrefix => some .typeParameter
  | varApparentType | explicitForeachType | usingOutsideNamespace | shortCircuitOperator
  | oneStatementPerLine | oneDeclarationPerLine => none

def isNaming (rule : Rule) : Bool := rule.role?.isSome

/-- The built-in pattern of a naming rule. -/
def defaultPattern? : Rule → Option String
  | pascalCaseType | pascalCasePublicMember | pascalCaseConstant | pascalCasePrivateMember =>
    some "^[A-Z][A-Za-z0-9]*$"
  | interfacePrefix => some "^I[A-Z][A-Za-z0-9]*$"
  | camelCaseUnderscoreField => some "^_[a-z][A-Za-z0-9]*$"
  | staticFieldPrefix => some "^s_[a-z][A-Za-z0-9]*$"
  | threadStaticFieldPrefix => some "^t_[a-z][A-Za-z0-9]*$"
  | camelCaseParameter => some "^[a-z][A-Za-z0-9]*$"
  | typeParameterPrefix => some "^T([A-Z][A-Za-z0-9]*)?$"
  | _ => none

def target : Rule → RuleTarget
  | varApparentType | explicitForeachType => .role .localVariable
  | usingOutsideNamespace => .usingDirectives
  | oneDeclarationPerLine => .declarationGroups
  | shortCircuitOperator | oneStatementPerLine => .tokens
  | rule => .role (rule.role?.getD .typeName)

/-- The rule needs the outline of a file and not only its tokens. -/
def needsOutline (rule : Rule) : Bool := rule.target != .tokens

def description : Rule → String
  | pascalCaseType => "Type names use PascalCase"
  | interfacePrefix => "Interface names start with 'I' followed by PascalCase"
  | pascalCasePublicMember => "Public, protected and protected internal members use PascalCase"
  | camelCaseUnderscoreField => "Private and internal instance fields use camelCase prefixed with '_'"
  | staticFieldPrefix => "Private and internal static fields use camelCase prefixed with 's_'"
  | threadStaticFieldPrefix => "Thread-static fields use camelCase prefixed with 't_'"
  | camelCaseParameter => "Method parameters use camelCase"
  | varApparentType =>
    "Use 'var' only when the type is apparent from the initializer (new, literal or cast)"
  | explicitForeachType => "Declare foreach iteration variables with an explicit type instead of 'var'"
  | usingOutsideNamespace => "Place using directives outside the namespace declaration"
  | shortCircuitOperator => "Use && and || instead of & and | when both operands are boolean"
  | oneStatementPerLine => "Write only one statement per line"
  | oneDeclarationPerLine => "Write only one declaration per line"
  | pascalCaseConstant => "Constants use PascalCase"
  | pascalCasePrivateMember => "Private methods, properties, events and local functions use PascalCase"
  | typeParameterPrefix => "Type parameters start with 'T' followed by PascalCase"

end Rule

end CSharpStyle
