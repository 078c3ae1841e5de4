import Persona.Analysis
import Persona.Analysis.Checks
import Persona.Analysis.Cycles
import Persona.Analysis.Problem
import Persona.Artifact.Cache
import Persona.Artifact.Key
import Persona.CommandLine
import Persona.CommandLine.Command
import Persona.CommandLine.Completion
import Persona.CommandLine.Flag
import Persona.Compile
import Persona.Duration
import Persona.Failure
import Persona.Folder
import Persona.Grammar.Document
import Persona.Grammar.Entries
import Persona.Grammar.Error
import Persona.Grammar.Expression
import Persona.Grammar.Parser
import Persona.Grammar.Rules
import Persona.Json
import Persona.Json.Printer
import Persona.Json.Reader
import Persona.Log
import Persona.Log.Line
import Persona.Logged
import Persona.Main
import Persona.Number.Binary64
import Persona.Number.Decimal
import Persona.Number.Layout
import Persona.Personality
import Persona.Personality.Agreement
import Persona.Personality.Printer
import Persona.Personality.Signature
import Persona.Proofs.Analysis.Acyclic
import Persona.Proofs.Analysis.Agreement
import Persona.Proofs.Analysis.Canonical
import Persona.Proofs.Analysis.Checks
import Persona.Proofs.Analysis.Classes
import Persona.Proofs.Analysis.Coverage
import Persona.Proofs.Analysis.Findings
import Persona.Proofs.Analysis.Places
import Persona.Proofs.Analysis.Sound
import Persona.Proofs.Analysis.Walk
import Persona.Proofs.Artifact.Cache
import Persona.Proofs.Artifact.Framing
import Persona.Proofs.Artifact.Recency
import Persona.Proofs.Compile
import Persona.Proofs.Grammar.Acceptance
import Persona.Proofs.Grammar.Arithmetic
import Persona.Proofs.Grammar.Depth
import Persona.Proofs.Grammar.Derivation
import Persona.Proofs.Grammar.Document
import Persona.Proofs.Grammar.Folding
import Persona.Proofs.Grammar.Fragment
import Persona.Proofs.Grammar.Limit
import Persona.Proofs.Grammar.Lists
import Persona.Proofs.Grammar.Locations
import Persona.Proofs.Grammar.Nesting
import Persona.Proofs.Grammar.Origin
import Persona.Proofs.Grammar.Performance
import Persona.Proofs.Grammar.Phrases
import Persona.Proofs.Grammar.Printable
import Persona.Proofs.Grammar.Program
import Persona.Proofs.Grammar.Reader
import Persona.Proofs.Grammar.Reads
import Persona.Proofs.Grammar.Recognition
import Persona.Proofs.Grammar.Recovery
import Persona.Proofs.Grammar.Routines
import Persona.Proofs.Grammar.Rules
import Persona.Proofs.Grammar.Spacing
import Persona.Proofs.Grammar.Steady
import Persona.Proofs.Grammar.Symbols
import Persona.Proofs.Grammar.Texts
import Persona.Proofs.Json.Reading
import Persona.Proofs.Json.Strings
import Persona.Proofs.Json.Values
import Persona.Proofs.Number.Numeral
import Persona.Proofs.Number.Rounding
import Persona.Proofs.Personality.Cuts
import Persona.Proofs.Personality.Numbers
import Persona.Proofs.Personality.Repair
import Persona.Proofs.Personality.Signature
import Persona.Proofs.Personality.Spelling
import Persona.Proofs.Personality.Storable
import Persona.Proofs.Personality.Texts
import Persona.Proofs.Request
import Persona.Proofs.Runner.Schedule
import Persona.Proofs.Runner.Sharing
import Persona.Proofs.Runner.Transparency
import Persona.Proofs.Service
import Persona.Proofs.Simplify.Accounting
import Persona.Proofs.Simplify.Confluence
import Persona.Proofs.Simplify.Salvage
import Persona.Proofs.Simplify.Trimming
import Persona.Proofs.Simplify.Validity
import Persona.Proofs.Source
import Persona.Proofs.Structured
import Persona.Proofs.Structured.Entries
import Persona.Proofs.Structured.Stability
import Persona.Proofs.Target.Chunk
import Persona.Proofs.Target.Cypher
import Persona.Proofs.Target.Lexeme
import Persona.Proofs.Target.Lua
import Persona.Proofs.Target.Prompt
import Persona.Proofs.Target.Query
import Persona.Proofs.Target.Script
import Persona.Proofs.Target.Sql
import Persona.Proofs.Text.Boundary
import Persona.Proofs.Text.Characters
import Persona.Proofs.Text.Utf8
import Persona.Proofs.Token.Filler
import Persona.Proofs.Token.Lossless
import Persona.Proofs.Token.Piece
import Persona.Proofs.Token.Spacing
import Persona.Proofs.Token.Spelling
import Persona.Proofs.Validation
import Persona.Release
import Persona.Runner
import Persona.Service
import Persona.Settings
import Persona.Settings.Printer
import Persona.Settings.Reader
import Persona.Simplify
import Persona.Source
import Persona.Structured
import Persona.Table
import Persona.Table.Boxed
import Persona.Table.Markdown
import Persona.Table.Title
import Persona.Target.Cypher
import Persona.Target.Lua
import Persona.Target.Prompt
import Persona.Target.Sql
import Persona.Text
import Persona.Text.Base64
import Persona.Text.Blank
import Persona.Text.Character
import Persona.Text.Digit
import Persona.Text.Letter
import Persona.Text.Lower
import Persona.Text.Printable
import Persona.Text.Quoted
import Persona.Text.Ranges
import Persona.Text.Style
import Persona.Text.Template
import Persona.Text.Upper
import Persona.Text.Visible
import Persona.Text.Width
import Persona.Token
import Persona.Token.Lexer
import Persona.Validation
import Persona.Yaml
import Persona.Yaml.Decoder
import Persona.Yaml.Fields
import Persona.Yaml.Node
import Persona.Yaml.Printer
import Persona.Yaml.Reader
import Persona.Yaml.Scalar
import Persona.Yaml.Shape
import Persona.Yaml.Stream
import Persona.Yaml.Token
import Persona.Yaml.Token.Block
import Persona.Yaml.Token.Gap
import Persona.Yaml.Token.Lexer
import Persona.Yaml.Token.Place
import Persona.Yaml.Token.Plain
import Persona.Yaml.Token.Quoted
import Persona.Yaml.Token.Tag
