import AbilityScript.Main
import AbilityScript.Program.Traversal
import AbilityScript.Proofs.Assembly.CleanText
import AbilityScript.Proofs.Assembly.Concatenation
import AbilityScript.Proofs.Assembly.ErrorPlaces
import AbilityScript.Proofs.Assembly.LayoutInvariance
import AbilityScript.Proofs.Assembly.LineGrammar
import AbilityScript.Proofs.Assembly.NumberWords
import AbilityScript.Proofs.Assembly.OperandWords
import AbilityScript.Proofs.Assembly.PrintedInstructions
import AbilityScript.Proofs.Assembly.SelfCheck
import AbilityScript.Proofs.Assembly.SourceMap
import AbilityScript.Proofs.Assembly.TouchingWords
import AbilityScript.Proofs.Blocks.Flattening
import AbilityScript.Proofs.Blocks.Grammar
import AbilityScript.Proofs.Blocks.Nesting
import AbilityScript.Proofs.Blocks.Retention
import AbilityScript.Proofs.Blocks.Scan
import AbilityScript.Proofs.Blocks.Spelling
import AbilityScript.Proofs.Blocks.Stray
import AbilityScript.Proofs.Bytecode.Appending
import AbilityScript.Proofs.Bytecode.InPlace
import AbilityScript.Proofs.Bytecode.Inverse
import AbilityScript.Proofs.Bytecode.Layout
import AbilityScript.Proofs.Bytecode.Offsets
import AbilityScript.Proofs.Bytecode.Reads
import AbilityScript.Proofs.CommandLine.AssembledFile
import AbilityScript.Proofs.CommandLine.Verdict
import AbilityScript.Proofs.Layout.ProgramLines
import AbilityScript.Proofs.Layout.RefusedLines
import AbilityScript.Proofs.Program.Erasure
import AbilityScript.Proofs.Program.Relocation
import AbilityScript.Proofs.Program.ViolationCounts
import AbilityScript.Proofs.Program.Violations
import AbilityScript.Proofs.Reading.Positions
import AbilityScript.Proofs.Reading.Validity
import AbilityScript.Proofs.RoundTrip.Bytes
import AbilityScript.Proofs.RoundTrip.Legality
import AbilityScript.Proofs.RoundTrip.Program
import AbilityScript.Proofs.RoundTrip.Text
import AbilityScript.Proofs.Source.LineBreaks
import AbilityScript.Proofs.Source.Pieces
import AbilityScript.Proofs.Source.LayoutEdits
import AbilityScript.Proofs.Source.PrintedWords
import AbilityScript.Proofs.Source.Rows
import AbilityScript.Proofs.Source.Slices
import AbilityScript.Proofs.Source.Tiling
import AbilityScript.Proofs.Source.TokenLoop
import AbilityScript.Proofs.Source.UniqueCut
import AbilityScript.Proofs.Source.WordGaps
import AbilityScript.Proofs.Text.NumeralForms
import AbilityScript.Proofs.Text.Numerals
