import NodeFilter.Binary64
import NodeFilter.Check
import NodeFilter.Command.Arguments
import NodeFilter.Command.Execution
import NodeFilter.Decimal
import NodeFilter.Document
import NodeFilter.Dump
import NodeFilter.Expr
import NodeFilter.Expr.Parser
import NodeFilter.Expr.Query
import NodeFilter.Expr.Session
import NodeFilter.Journal
import NodeFilter.Json
import NodeFilter.Json.Fault
import NodeFilter.Json.Number
import NodeFilter.Json.Place
import NodeFilter.Json.Printer
import NodeFilter.Json.Reader
import NodeFilter.Json.Text
import NodeFilter.Main
import NodeFilter.Manual
import NodeFilter.Scope
import NodeFilter.Text.Quoted
import NodeFilter.Token
import NodeFilter.Token.Lexer
import NodeFilter.Value
import NodeFilter.Proofs.BlankRuns
import NodeFilter.Proofs.ChainLoop
import NodeFilter.Proofs.CheckCommand
import NodeFilter.Proofs.Checking
import NodeFilter.Proofs.Combination
import NodeFilter.Proofs.Composition
import NodeFilter.Proofs.Cutoff
import NodeFilter.Proofs.DepthLimit
import NodeFilter.Proofs.Descent
import NodeFilter.Proofs.Division
import NodeFilter.Proofs.DumpText
import NodeFilter.Proofs.EarliestFault
import NodeFilter.Proofs.Faults
import NodeFilter.Proofs.Grammar
import NodeFilter.Proofs.Influence
import NodeFilter.Proofs.Inspection
import NodeFilter.Proofs.Installation
import NodeFilter.Proofs.JsonLayout
import NodeFilter.Proofs.JsonPassage
import NodeFilter.Proofs.KeyFilters
import NodeFilter.Proofs.Lexemes
import NodeFilter.Proofs.LexicalFault
import NodeFilter.Proofs.Locality
import NodeFilter.Proofs.Locations
import NodeFilter.Proofs.Meaning
import NodeFilter.Proofs.Names
import NodeFilter.Proofs.Nesting
import NodeFilter.Proofs.NumberText
import NodeFilter.Proofs.NumeralForm
import NodeFilter.Proofs.OpenLevels
import NodeFilter.Proofs.PathText
import NodeFilter.Proofs.Progress
import NodeFilter.Proofs.Resumption
import NodeFilter.Proofs.Rewriting
import NodeFilter.Proofs.Rounding
import NodeFilter.Proofs.Selection
import NodeFilter.Proofs.SourceText
import NodeFilter.Proofs.Spelling
import NodeFilter.Proofs.Splitting
import NodeFilter.Proofs.TextRun
import NodeFilter.Proofs.TypeNames
import NodeFilter.Proofs.TypeTests
