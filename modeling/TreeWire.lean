import TreeWire.Command.Corpus
import TreeWire.Command.Documents
import TreeWire.Command.Invocation
import TreeWire.Command.Options
import TreeWire.Command.Outline
import TreeWire.Command.Report
import TreeWire.Command.Run
import TreeWire.Declaration.Attributes
import TreeWire.Declaration.Expressions
import TreeWire.Declaration.Generics
import TreeWire.Declaration.Grammar
import TreeWire.Declaration.Identifier
import TreeWire.Declaration.Items
import TreeWire.Declaration.Lexer
import TreeWire.Declaration.Literal
import TreeWire.Declaration.Model
import TreeWire.Declaration.Parser
import TreeWire.Declaration.Patterns
import TreeWire.Declaration.SourceFile
import TreeWire.Declaration.TokenTree
import TreeWire.Declaration.Types
import TreeWire.DecodeError
import TreeWire.Files.Access
import TreeWire.Files.Path
import TreeWire.Files.Tree
import TreeWire.Glob.Expansion
import TreeWire.Glob.Pattern
import TreeWire.Json.Basic
import TreeWire.Json.Number
import TreeWire.Json.Parser
import TreeWire.Json.Pointer
import TreeWire.Json.Printer
import TreeWire.Main
import TreeWire.Node.Decoder
import TreeWire.Node.Encoding
import TreeWire.Node.Tree
import TreeWire.Node.Type
import TreeWire.Number.Binary64
import TreeWire.Number.FloatText
import TreeWire.Number.IntText
import TreeWire.Number.Shortest
import TreeWire.Proofs.Action
import TreeWire.Proofs.Json.Grammar
import TreeWire.Proofs.Json.Merging
import TreeWire.Proofs.Json.ParsedNumbers
import TreeWire.Proofs.Json.ParserSteps
import TreeWire.Proofs.Json.Parsing
import TreeWire.Proofs.Json.Printing
import TreeWire.Proofs.Json.Tokens
import TreeWire.Proofs.Node.DecodedTexts
import TreeWire.Proofs.Node.Denotation
import TreeWire.Proofs.Node.ErrorPaths
import TreeWire.Proofs.Node.Failures
import TreeWire.Proofs.Node.Reencoding
import TreeWire.Proofs.Node.RoundTrip
import TreeWire.Proofs.Node.Simulation
import TreeWire.Proofs.Node.SourceAgreement
import TreeWire.Proofs.Node.ToldDocuments
import TreeWire.Proofs.Node.TreeDecoding
import TreeWire.Proofs.Number.Digits
import TreeWire.Proofs.Number.FloatReading
import TreeWire.Proofs.Number.Range
import TreeWire.Proofs.Number.Rounding
import TreeWire.Proofs.Number.ShortestDecimal
import TreeWire.Proofs.Schema.Consistency
import TreeWire.Proofs.Schema.Fields
import TreeWire.Proofs.Schema.Membership
import TreeWire.Proofs.Source.Automaton
import TreeWire.Proofs.Source.Cursor
import TreeWire.Proofs.Source.Delivery
import TreeWire.Proofs.Source.Lexemes
import TreeWire.Proofs.Source.Nesting
import TreeWire.Proofs.Source.Readings
import TreeWire.Proofs.Source.Results
import TreeWire.Proofs.Source.ScannedDocuments
import TreeWire.Proofs.Source.Scanning
import TreeWire.Proofs.Source.Walking
import TreeWire.Proofs.Text.Utf8
import TreeWire.Schema.Basic
import TreeWire.Schema.Classification
import TreeWire.Schema.Encoding
import TreeWire.Schema.Extraction
import TreeWire.Schema.Model
import TreeWire.Schema.Warning
import TreeWire.Schema.WireOptions
import TreeWire.Source.Basic
import TreeWire.Source.Cursor
import TreeWire.Source.Lexeme
import TreeWire.Source.Scanner
import TreeWire.Source.TokenList
import TreeWire.Source.ValueWalk
import TreeWire.Text.Blank
import TreeWire.Text.CharTable
import TreeWire.Text.IdentChar
import TreeWire.Text.LetterCase
import TreeWire.Text.Lines
import TreeWire.Text.Printable
import TreeWire.Text.Quoted
import TreeWire.Text.SnakeCase
import TreeWire.Text.Split
import TreeWire.Token
import TreeWire.Unit.DecoderUnit
import TreeWire.Unit.Line
import TreeWire.Unit.Methods
import TreeWire.Proofs.Source.InputErrors
import TreeWire.Proofs.Source.Sessions
import TreeWire.Proofs.Source.OpenContainers
import TreeWire.Proofs.Node.MemberOrder
import TreeWire.Proofs.Node.SumDecoding
import TreeWire.Proofs.Source.Assembly
import TreeWire.Proofs.Node.EarlyStops
import TreeWire.Proofs.Node.BrokenInput
import TreeWire.Proofs.Source.Limits
import TreeWire.Proofs.Node.Lockstep
import TreeWire.Proofs.Node.HeldTokens
import TreeWire.Proofs.Node.Termination
import TreeWire.Proofs.Node.LimitRaising
import TreeWire.Proofs.Schema.Passes
import TreeWire.Proofs.Schema.Conservation
import TreeWire.Proofs.Schema.Reachability
import TreeWire.Proofs.Node.OpenValues
import TreeWire.Proofs.Node.SourceFailures
import TreeWire.Proofs.Json.NumberKinds
import TreeWire.Proofs.Node.NumberLiterals
import TreeWire.Proofs.Declaration.Equality
import TreeWire.Proofs.Declaration.Names
import TreeWire.Proofs.Schema.ItemOrder
import TreeWire.Proofs.Text.SnakeCase
import TreeWire.Proofs.Unit.Calls
import TreeWire.Proofs.Unit.Coverage
import TreeWire.Proofs.Unit.MethodNames
import TreeWire.Proofs.Declaration.Blanking
import TreeWire.Proofs.Declaration.BlindGrammar
import TreeWire.Proofs.Schema.BlankedOptions
import TreeWire.Proofs.Schema.WireNames
import TreeWire.Proofs.Unit.Literals
import TreeWire.Proofs.Unit.CodeText
import TreeWire.Proofs.Unit.QuotedNames
import TreeWire.Proofs.Source.ReachableStates
import TreeWire.Proofs.Source.WalkStates
import TreeWire.Proofs.Source.Flaws
import TreeWire.Proofs.Source.ErrorPlaces
import TreeWire.Proofs.Text.Lines
import TreeWire.Proofs.Json.CompactText
import TreeWire.Proofs.Command.LineDocuments
import TreeWire.Proofs.Files.Trees
import TreeWire.Proofs.Files.Places
import TreeWire.Proofs.Files.Growth
import TreeWire.Proofs.Files.Actions
import TreeWire.Proofs.Files.JoinedPaths
import TreeWire.Proofs.Command.Inputs
import TreeWire.Proofs.Command.Outputs
import TreeWire.Proofs.Command.DecodeRuns
import TreeWire.Proofs.Text.TypeNames
import TreeWire.Proofs.Node.ErrorTexts
import TreeWire.Proofs.Node.NamedErrors
import TreeWire.Proofs.Schema.FieldTypes
import TreeWire.Proofs.Unit.ValueTypes
