import DeclKit.Build
import DeclKit.CommandLine
import DeclKit.Comment
import DeclKit.Config.Document
import DeclKit.Config.Option
import DeclKit.Config.Project
import DeclKit.Config.Read
import DeclKit.Decl.Build
import DeclKit.Decl.Edit
import DeclKit.Decl.Print
import DeclKit.Decl.Tree
import DeclKit.Diagnostic.Basic
import DeclKit.Diagnostic.Kind
import DeclKit.Diagnostic.Mark
import DeclKit.Diagnostic.Report
import DeclKit.Emit.Copy
import DeclKit.Emit.Output
import DeclKit.Emit.Reach
import DeclKit.Emit.Statements
import DeclKit.FileTree
import DeclKit.Glob.Match
import DeclKit.Glob.Read
import DeclKit.Json.Basic
import DeclKit.Json.Commented
import DeclKit.Json.Read
import DeclKit.Json.Skip
import DeclKit.Judgment
import DeclKit.Main
import DeclKit.Marker.Basic
import DeclKit.Number.Double
import DeclKit.Number.Text
import DeclKit.Options
import DeclKit.Parser.Lists
import DeclKit.Parser.Members
import DeclKit.Parser.State
import DeclKit.Parser.Statements
import DeclKit.Parser.Types
import DeclKit.Path
import DeclKit.Program.Basic
import DeclKit.Program.Host
import DeclKit.Program.Library
import DeclKit.Proofs.Comment.Leading
import DeclKit.Proofs.Comment.Scan
import DeclKit.Proofs.Config.Layers
import DeclKit.Proofs.Decl.Edit
import DeclKit.Proofs.Decl.Layout
import DeclKit.Proofs.Decl.Rel
import DeclKit.Proofs.Diagnostic.Message
import DeclKit.Proofs.Diagnostic.Order
import DeclKit.Proofs.Emit.Expression
import DeclKit.Proofs.Emit.Kept
import DeclKit.Proofs.Emit.Mark
import DeclKit.Proofs.Emit.Needed
import DeclKit.Proofs.Emit.Place
import DeclKit.Proofs.Emit.Reach
import DeclKit.Proofs.Emit.Stable
import DeclKit.Proofs.Grammar.Ahead
import DeclKit.Proofs.Grammar.Alias
import DeclKit.Proofs.Grammar.Built
import DeclKit.Proofs.Grammar.Copying
import DeclKit.Proofs.Grammar.Cutting
import DeclKit.Proofs.Grammar.Member
import DeclKit.Proofs.Grammar.MemberName
import DeclKit.Proofs.Grammar.Outline
import DeclKit.Proofs.Grammar.Phrase
import DeclKit.Proofs.Grammar.Printing
import DeclKit.Proofs.Grammar.Reading
import DeclKit.Proofs.Json.Commented
import DeclKit.Proofs.Judgment
import DeclKit.Proofs.Limits.Account
import DeclKit.Proofs.Limits.Nesting
import DeclKit.Proofs.Marker.Edit
import DeclKit.Proofs.Parser.File
import DeclKit.Proofs.Parser.Lists
import DeclKit.Proofs.Parser.Members
import DeclKit.Proofs.Parser.Mode
import DeclKit.Proofs.Parser.Nodes
import DeclKit.Proofs.Parser.Primary
import DeclKit.Proofs.Parser.Reports
import DeclKit.Proofs.Parser.Run
import DeclKit.Proofs.Parser.Statements
import DeclKit.Proofs.Parser.Types
import DeclKit.Proofs.Path.Relative
import DeclKit.Proofs.Path.Specifier
import DeclKit.Proofs.Path.Stem
import DeclKit.Proofs.Path.Walk
import DeclKit.Proofs.Program.Keys
import DeclKit.Proofs.Program.Reach
import DeclKit.Proofs.Program.Script
import DeclKit.Proofs.Program.Specifier
import DeclKit.Proofs.Symbol.Account
import DeclKit.Proofs.Symbol.Binder
import DeclKit.Proofs.Symbol.Consistent
import DeclKit.Proofs.Symbol.Exports
import DeclKit.Proofs.Symbol.Names
import DeclKit.Proofs.Text.Lines
import DeclKit.Proofs.Text.Offset
import DeclKit.Proofs.Token.Apart
import DeclKit.Proofs.Token.Lexer
import DeclKit.Proofs.Token.Number
import DeclKit.Proofs.Token.Substitution
import DeclKit.Proofs.Token.Template
import DeclKit.Proofs.Token.Written
import DeclKit.Proofs.Tree.Cover
import DeclKit.Proofs.Tree.Keys
import DeclKit.Proofs.Trivia.File
import DeclKit.Proofs.Trivia.Members
import DeclKit.Proofs.Trivia.Statements
import DeclKit.Proofs.Trivia.Step
import DeclKit.Proofs.Trivia.Types
import DeclKit.Proofs.Types.Algebra
import DeclKit.Proofs.Types.Composition
import DeclKit.Proofs.Typing.Spared
import DeclKit.Proofs.Types.Instance
import DeclKit.Proofs.Types.Intersection
import DeclKit.Proofs.Types.Mapper
import DeclKit.Proofs.Types.Matching
import DeclKit.Proofs.Types.Normal
import DeclKit.Proofs.Types.Order
import DeclKit.Proofs.Types.Session
import DeclKit.Proofs.Types.Template
import DeclKit.Proofs.Types.Union
import DeclKit.Proofs.Typing.Answers
import DeclKit.Proofs.Typing.BigInteger
import DeclKit.Proofs.Typing.Composition
import DeclKit.Proofs.Typing.Intersection
import DeclKit.Proofs.Typing.Keys
import DeclKit.Proofs.Typing.Mapper
import DeclKit.Proofs.Typing.Members
import DeclKit.Proofs.Typing.Pattern
import DeclKit.Proofs.Typing.Reachable
import DeclKit.Proofs.Typing.Spelling
import DeclKit.Proofs.Typing.Tuples
import DeclKit.Source
import DeclKit.Symbol.Basic
import DeclKit.Symbol.Binder
import DeclKit.Text.Glyph
import DeclKit.Text.Letter
import DeclKit.Text.LetterCase
import DeclKit.Text.Lines
import DeclKit.Text.Offset
import DeclKit.Text.PropertyName
import DeclKit.Text.Quoted
import DeclKit.Text.Radix
import DeclKit.Text.RangeTable
import DeclKit.Text.Shown
import DeclKit.Token.Basic
import DeclKit.Token.Lexer
import DeclKit.Token.Template
import DeclKit.Tree.Basic
import DeclKit.Tree.Node
import DeclKit.Types.Basic
import DeclKit.Types.Instance
import DeclKit.Types.Interner
import DeclKit.Types.Intersection
import DeclKit.Types.Table
import DeclKit.Types.Template
import DeclKit.Types.Union
import DeclKit.Typing.Assignable
import DeclKit.Typing.Check
import DeclKit.Typing.Declared
import DeclKit.Typing.Denote
import DeclKit.Typing.Diagnose
import DeclKit.Typing.Infer
import DeclKit.Typing.Level
import DeclKit.Typing.Mapped
import DeclKit.Typing.Members
import DeclKit.Typing.Operations
import DeclKit.Typing.Operators
import DeclKit.Typing.Render
import DeclKit.Typing.Scope
import DeclKit.Typing.Shapes
import DeclKit.Typing.Spelling
import DeclKit.Typing.Substituted
import DeclKit.Typing.Verdict
import DeclKit.Proofs.Typing.Concrete
