import HoneypotAudit.Abi.Basic
import HoneypotAudit.Abi.Decoder
import HoneypotAudit.Abi.Resolve
import HoneypotAudit.Abi.Signature
import HoneypotAudit.Abi.TypeText
import HoneypotAudit.Abi.Value
import HoneypotAudit.Address.Checksum
import HoneypotAudit.Address.Keccak
import HoneypotAudit.Analysis.Compilation
import HoneypotAudit.Analysis.Fault
import HoneypotAudit.Analysis.Preparation
import HoneypotAudit.Analysis.Run
import HoneypotAudit.Breakdown
import HoneypotAudit.CommandLine.Console
import HoneypotAudit.CommandLine.Fault
import HoneypotAudit.CommandLine.Invocation
import HoneypotAudit.CommandLine.Run
import HoneypotAudit.CommandLine.Syntax
import HoneypotAudit.CommandLine.Usage
import HoneypotAudit.Deployment.Arguments
import HoneypotAudit.Deployment.Blob
import HoneypotAudit.Failure
import HoneypotAudit.Files.Path
import HoneypotAudit.Files.Tree
import HoneypotAudit.Forge.Config
import HoneypotAudit.Forge.Execution
import HoneypotAudit.Forge.Formatter
import HoneypotAudit.Forge.Operation
import HoneypotAudit.Forge.Report
import HoneypotAudit.Forge.Tool
import HoneypotAudit.Injection
import HoneypotAudit.Json.Basic
import HoneypotAudit.Json.Printer
import HoneypotAudit.Json.Reader
import HoneypotAudit.Json.Shown
import HoneypotAudit.Log.Line
import HoneypotAudit.Log.Record
import HoneypotAudit.Log.Template
import HoneypotAudit.Main
import HoneypotAudit.Number.Binary64
import HoneypotAudit.Number.Decimal
import HoneypotAudit.Number.Notation
import HoneypotAudit.Number.Numeral
import HoneypotAudit.Proofs.Abi.Declared
import HoneypotAudit.Proofs.Abi.Encoding
import HoneypotAudit.Proofs.Abi.Fits
import HoneypotAudit.Proofs.Abi.Lengths
import HoneypotAudit.Proofs.Abi.Resolution
import HoneypotAudit.Proofs.Abi.RoundTrip
import HoneypotAudit.Proofs.Abi.TypeText
import HoneypotAudit.Proofs.Abi.Words
import HoneypotAudit.Proofs.Analysis.ChainState
import HoneypotAudit.Proofs.Analysis.CleanUp
import HoneypotAudit.Proofs.Analysis.CompilerVersion
import HoneypotAudit.Proofs.Analysis.ExitStatus
import HoneypotAudit.Proofs.Analysis.Injection
import HoneypotAudit.Proofs.Analysis.Preparation
import HoneypotAudit.Proofs.Analysis.Reports
import HoneypotAudit.Proofs.Analysis.SeedCall
import HoneypotAudit.Proofs.CommandLine.ExitStatus
import HoneypotAudit.Proofs.CommandLine.Runs
import HoneypotAudit.Proofs.CommandLine.ShownSettings
import HoneypotAudit.Proofs.CommandLine.Targets
import HoneypotAudit.Proofs.Deployment.Arguments
import HoneypotAudit.Proofs.Deployment.Blobs
import HoneypotAudit.Proofs.Deployment.Containment
import HoneypotAudit.Proofs.Deployment.RoundTrip
import HoneypotAudit.Proofs.Deployment.Signatures
import HoneypotAudit.Proofs.Files.Trees
import HoneypotAudit.Proofs.Forge.Backing
import HoneypotAudit.Proofs.Forge.Execution
import HoneypotAudit.Proofs.Forge.Failures
import HoneypotAudit.Proofs.Forge.Findings
import HoneypotAudit.Proofs.Forge.Library
import HoneypotAudit.Proofs.Forge.ProgressLines
import HoneypotAudit.Proofs.Forge.Projects
import HoneypotAudit.Proofs.Forge.Shape
import HoneypotAudit.Proofs.Forge.SuiteFiles
import HoneypotAudit.Proofs.Forge.Suites
import HoneypotAudit.Proofs.Forge.Temporaries
import HoneypotAudit.Proofs.Json.Floats
import HoneypotAudit.Proofs.Json.HeldValues
import HoneypotAudit.Proofs.Json.LineReading
import HoneypotAudit.Proofs.Json.Numerals
import HoneypotAudit.Proofs.Json.PrintedLines
import HoneypotAudit.Proofs.Json.Reading
import HoneypotAudit.Proofs.Json.RoundTrip
import HoneypotAudit.Proofs.Json.Texts
import HoneypotAudit.Proofs.Json.Tokens
import HoneypotAudit.Proofs.Json.ValueTexts
import HoneypotAudit.Proofs.Json.Writing
import HoneypotAudit.Proofs.Log.Entries
import HoneypotAudit.Proofs.Number.Rounding
import HoneypotAudit.Proofs.Number.Shortest
import HoneypotAudit.Proofs.Outcome
import HoneypotAudit.Proofs.Report.RoundTrip
import HoneypotAudit.Proofs.Report.Table
import HoneypotAudit.Proofs.Session.Runs
import HoneypotAudit.Proofs.Solidity.Arguments
import HoneypotAudit.Proofs.Solidity.ArrayTypes
import HoneypotAudit.Proofs.Solidity.Classification
import HoneypotAudit.Proofs.Solidity.Constants
import HoneypotAudit.Proofs.Solidity.Containment
import HoneypotAudit.Proofs.Solidity.Denotation
import HoneypotAudit.Proofs.Solidity.Evaluation
import HoneypotAudit.Proofs.Solidity.Lexical
import HoneypotAudit.Proofs.Solidity.Literals
import HoneypotAudit.Proofs.Solidity.Locations
import HoneypotAudit.Proofs.Solidity.Pragma
import HoneypotAudit.Proofs.Solidity.PragmaEffect
import HoneypotAudit.Proofs.Solidity.Rendering
import HoneypotAudit.Proofs.Solidity.Scoping
import HoneypotAudit.Proofs.Solidity.TypeTexts
import HoneypotAudit.Proofs.Solidity.Variables
import HoneypotAudit.Proofs.Solidity.Versions
import HoneypotAudit.Proofs.Source.Insertion
import HoneypotAudit.Proofs.Source.Spans
import HoneypotAudit.Proofs.Steps
import HoneypotAudit.Proofs.Suite.Shape
import HoneypotAudit.Proofs.Suite.Statements
import HoneypotAudit.Proofs.Text.Decimal
import HoneypotAudit.Proofs.Text.Hexadecimal
import HoneypotAudit.Proofs.Text.Integer
import HoneypotAudit.Proofs.Text.Lines
import HoneypotAudit.Proofs.Text.NumberText
import HoneypotAudit.Proofs.Text.Spans
import HoneypotAudit.Proofs.Text.Utf8
import HoneypotAudit.Report.Basic
import HoneypotAudit.Report.Document
import HoneypotAudit.Report.Table
import HoneypotAudit.Rooms
import HoneypotAudit.Scenario
import HoneypotAudit.Session.Basic
import HoneypotAudit.Settings.Basic
import HoneypotAudit.Settings.EnvironmentFile
import HoneypotAudit.Solc.Compiler
import HoneypotAudit.Solidity.Argument
import HoneypotAudit.Solidity.Declaration
import HoneypotAudit.Solidity.Facts
import HoneypotAudit.Solidity.Literal
import HoneypotAudit.Solidity.Pragma
import HoneypotAudit.Solidity.Tree
import HoneypotAudit.Solidity.TypeName
import HoneypotAudit.Source.Position
import HoneypotAudit.Source.Splice
import HoneypotAudit.Suite.Basic
import HoneypotAudit.Suite.Synthesis
import HoneypotAudit.Text.Blank
import HoneypotAudit.Text.Digit
import HoneypotAudit.Text.Hex
import HoneypotAudit.Text.Integer
import HoneypotAudit.Text.Lines
import HoneypotAudit.Text.LowerCase
import HoneypotAudit.Text.Printable
import HoneypotAudit.Text.Quoted
import HoneypotAudit.Text.Ranges
import HoneypotAudit.Text.Utf8
import HoneypotAudit.Validation
