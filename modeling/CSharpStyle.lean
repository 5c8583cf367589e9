import CSharpStyle.Analysis.Analyzer
import CSharpStyle.Analysis.Batch
import CSharpStyle.Analysis.FileAnalysis
import CSharpStyle.Analysis.Run
import CSharpStyle.Analysis.Validator
import CSharpStyle.Cache.Basic
import CSharpStyle.Cache.Document
import CSharpStyle.Cache.Store
import CSharpStyle.CommandLine.Arguments
import CSharpStyle.CommandLine.Command
import CSharpStyle.CommandLine.Execution
import CSharpStyle.Convention.Casing
import CSharpStyle.Convention.DeclarationRules
import CSharpStyle.Convention.Naming
import CSharpStyle.Convention.Rule
import CSharpStyle.Convention.RuleSet
import CSharpStyle.Convention.ShortCircuit
import CSharpStyle.Convention.StatementLayout
import CSharpStyle.Convention.Subject
import CSharpStyle.Declaration.Basic
import CSharpStyle.Declaration.Modifiers
import CSharpStyle.Declaration.Role
import CSharpStyle.Digest.Sha256
import CSharpStyle.Digest.SipHash
import CSharpStyle.Finding.Basic
import CSharpStyle.Finding.Document
import CSharpStyle.Finding.Failure
import CSharpStyle.Finding.Report
import CSharpStyle.Finding.Severity
import CSharpStyle.Format.Fields
import CSharpStyle.Format.Json
import CSharpStyle.Format.JsonReader
import CSharpStyle.Format.Yaml
import CSharpStyle.Format.YamlReader
import CSharpStyle.Grammar.CompilationUnit
import CSharpStyle.Grammar.Cursor
import CSharpStyle.Grammar.Defect
import CSharpStyle.Grammar.Expression
import CSharpStyle.Grammar.Initializer
import CSharpStyle.Grammar.Iteration
import CSharpStyle.Grammar.LocalDeclaration
import CSharpStyle.Grammar.Member
import CSharpStyle.Grammar.Reading
import CSharpStyle.Grammar.Signature
import CSharpStyle.Grammar.Statement
import CSharpStyle.Grammar.TypeReference
import CSharpStyle.Lexical.Lexeme
import CSharpStyle.Lexical.Lexer
import CSharpStyle.Lexical.Nesting
import CSharpStyle.Lexical.Token
import CSharpStyle.Main
import CSharpStyle.Outline.Basic
import CSharpStyle.Pattern.CharSet
import CSharpStyle.Pattern.Glob
import CSharpStyle.Pattern.Regex
import CSharpStyle.Pattern.RegexReader
import CSharpStyle.Proofs.Backtracking.LocalDeclaration
import CSharpStyle.Proofs.Backtracking.TypeReference
import CSharpStyle.Proofs.Braces.CompilationUnit
import CSharpStyle.Proofs.Braces.Depth
import CSharpStyle.Proofs.Braces.Member
import CSharpStyle.Proofs.Braces.Reading
import CSharpStyle.Proofs.Braces.Statement
import CSharpStyle.Proofs.Cache.Agreement
import CSharpStyle.Proofs.Cache.Persistence
import CSharpStyle.Proofs.Cache.Transparency
import CSharpStyle.Proofs.CoreGrammar.Clean
import CSharpStyle.Proofs.CoreGrammar.Contents
import CSharpStyle.Proofs.CoreGrammar.Members
import CSharpStyle.Proofs.CoreGrammar.Statements
import CSharpStyle.Proofs.CoreGrammar.Syntax
import CSharpStyle.Proofs.CoreGrammar.Types
import CSharpStyle.Proofs.CoreGrammar.Unit
import CSharpStyle.Proofs.CoreGrammar.Words
import CSharpStyle.Proofs.Correspondence.CompilationUnit
import CSharpStyle.Proofs.Correspondence.Cursor
import CSharpStyle.Proofs.Correspondence.Expression
import CSharpStyle.Proofs.Correspondence.Invariant
import CSharpStyle.Proofs.Correspondence.LocalDeclaration
import CSharpStyle.Proofs.Correspondence.Member
import CSharpStyle.Proofs.Correspondence.Reading
import CSharpStyle.Proofs.Correspondence.Shift
import CSharpStyle.Proofs.Correspondence.Signature
import CSharpStyle.Proofs.Correspondence.Statement
import CSharpStyle.Proofs.Discovery.Paths
import CSharpStyle.Proofs.Discovery.Selection
import CSharpStyle.Proofs.Discovery.Subtree
import CSharpStyle.Proofs.Discovery.Tree
import CSharpStyle.Proofs.Discovery.Walk
import CSharpStyle.Proofs.ExplicitMembers.ClassBody
import CSharpStyle.Proofs.ExplicitMembers.Reading
import CSharpStyle.Proofs.ExplicitMembers.Syntax
import CSharpStyle.Proofs.Findings.Checks
import CSharpStyle.Proofs.Findings.Declarators
import CSharpStyle.Proofs.Findings.Distinct
import CSharpStyle.Proofs.Findings.Independence
import CSharpStyle.Proofs.Findings.Location
import CSharpStyle.Proofs.Findings.Order
import CSharpStyle.Proofs.Format.PrintedJson
import CSharpStyle.Proofs.Grammar.Brackets
import CSharpStyle.Proofs.Grammar.ClassFile
import CSharpStyle.Proofs.Grammar.Consumption
import CSharpStyle.Proofs.Grammar.Creation
import CSharpStyle.Proofs.Grammar.CreationFile
import CSharpStyle.Proofs.Grammar.StatementForm
import CSharpStyle.Proofs.Grammar.TypeText
import CSharpStyle.Proofs.Initializers.Brackets
import CSharpStyle.Proofs.Initializers.Completeness
import CSharpStyle.Proofs.Initializers.Creation
import CSharpStyle.Proofs.Initializers.Parentheses
import CSharpStyle.Proofs.Initializers.Shapes
import CSharpStyle.Proofs.Initializers.TypeReference
import CSharpStyle.Proofs.Interfaces.Additions
import CSharpStyle.Proofs.Interfaces.CompilationUnit
import CSharpStyle.Proofs.Isolation.ClassBody
import CSharpStyle.Proofs.Isolation.Cursor
import CSharpStyle.Proofs.Isolation.Member
import CSharpStyle.Proofs.Isolation.Reading
import CSharpStyle.Proofs.Isolation.Signature
import CSharpStyle.Proofs.Layout.Findings
import CSharpStyle.Proofs.Layout.Structure
import CSharpStyle.Proofs.Lexical.Delimited
import CSharpStyle.Proofs.Lexical.Extension
import CSharpStyle.Proofs.Lexical.Hole
import CSharpStyle.Proofs.Lexical.Identifier
import CSharpStyle.Proofs.Lexical.LineStart
import CSharpStyle.Proofs.Lexical.Lines
import CSharpStyle.Proofs.Lexical.Places
import CSharpStyle.Proofs.Lexical.Quoting
import CSharpStyle.Proofs.Lexical.Recovery
import CSharpStyle.Proofs.Lexical.StringLiteral
import CSharpStyle.Proofs.Lexical.Tiling
import CSharpStyle.Proofs.Modifiers.Bodies
import CSharpStyle.Proofs.Modifiers.Front
import CSharpStyle.Proofs.Modifiers.Order
import CSharpStyle.Proofs.Naming.Shape
import CSharpStyle.Proofs.Naming.Suggestion
import CSharpStyle.Proofs.Naming.Words
import CSharpStyle.Proofs.Operands.Comparison
import CSharpStyle.Proofs.Operands.Extent
import CSharpStyle.Proofs.Operands.Operation
import CSharpStyle.Proofs.Operands.TypeArguments
import CSharpStyle.Proofs.Outline.Parsed
import CSharpStyle.Proofs.Outline.WellFormed
import CSharpStyle.Proofs.Pattern.Matching
import CSharpStyle.Proofs.Recording.Comma
import CSharpStyle.Proofs.Recording.CompilationUnit
import CSharpStyle.Proofs.Recording.Cursor
import CSharpStyle.Proofs.Recording.Groups
import CSharpStyle.Proofs.Recording.Member
import CSharpStyle.Proofs.Recording.Names
import CSharpStyle.Proofs.Recording.Reading
import CSharpStyle.Proofs.Recording.Statement
import CSharpStyle.Proofs.Recording.Step
import CSharpStyle.Proofs.Rendering.Grouping
import CSharpStyle.Proofs.Rendering.Presentation
import CSharpStyle.Proofs.Rendering.SortedReport
import CSharpStyle.Proofs.Rendering.TextLines
import CSharpStyle.Proofs.Rendering.WorkflowCommand
import CSharpStyle.Proofs.Runs.Batch
import CSharpStyle.Proofs.Runs.Division
import CSharpStyle.Proofs.Runs.ExitCode
import CSharpStyle.Proofs.Runs.Interruption
import CSharpStyle.Proofs.Settings.Effect
import CSharpStyle.Proofs.Settings.FingerprintStream
import CSharpStyle.Proofs.Settings.Symbols
import CSharpStyle.Proofs.Settings.Usability
import CSharpStyle.Proofs.Source.Lines
import CSharpStyle.Proofs.Statements.OneLine
import CSharpStyle.Proofs.Statements.Scan
import CSharpStyle.Proofs.Text.Utf8
import CSharpStyle.Proofs.Workspace.Writing
import CSharpStyle.Rendering.Format
import CSharpStyle.Rendering.Record
import CSharpStyle.Rendering.Structured
import CSharpStyle.Rendering.Style
import CSharpStyle.Rendering.Text
import CSharpStyle.Rendering.WorkflowCommand
import CSharpStyle.Settings.Basic
import CSharpStyle.Settings.Document
import CSharpStyle.Settings.File
import CSharpStyle.Settings.Fingerprint
import CSharpStyle.Source.Line
import CSharpStyle.Source.Path
import CSharpStyle.Source.Position
import CSharpStyle.Text.Numeral
import CSharpStyle.Text.Utf8
import CSharpStyle.Time.Timestamp
import CSharpStyle.Unicode.Alphabetic
import CSharpStyle.Unicode.CaseFolding
import CSharpStyle.Unicode.CaseMapping
import CSharpStyle.Unicode.CodePoints
import CSharpStyle.Unicode.LetterCase
import CSharpStyle.Unicode.LowercaseText
import CSharpStyle.Unicode.Numeric
import CSharpStyle.Unicode.Whitespace
import CSharpStyle.Unicode.WordCharacter
import CSharpStyle.Workspace.FileSystem
import CSharpStyle.Workspace.PathFilter
