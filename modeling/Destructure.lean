import Destructure.CommandLine
import Destructure.Decomposition.Decomposer
import Destructure.Decomposition.Registry
import Destructure.Error
import Destructure.Main
import Destructure.Matching.Assertion
import Destructure.Matching.Bindings
import Destructure.Matching.Matcher
import Destructure.Matching.Search
import Destructure.Matching.Slots
import Destructure.Number.Binary64
import Destructure.Number.ComplexNumber
import Destructure.Number.Fraction
import Destructure.Number.Numeral
import Destructure.Number.Shortest
import Destructure.Pattern.Basic
import Destructure.Pattern.Malformed
import Destructure.Pattern.Options
import Destructure.Pattern.Outline
import Destructure.Pattern.Printer
import Destructure.Pattern.Tree
import Destructure.Pattern.Validation
import Destructure.Proofs.Matching.Alignment
import Destructure.Proofs.Matching.BoundNames
import Destructure.Proofs.Matching.Calls
import Destructure.Proofs.Matching.Conclusion
import Destructure.Proofs.Matching.ConditionNames
import Destructure.Proofs.Matching.Correspondence
import Destructure.Proofs.Matching.Courses
import Destructure.Proofs.Matching.Deposits
import Destructure.Proofs.Matching.FirstSolution
import Destructure.Proofs.Matching.GeneralSearch
import Destructure.Proofs.Matching.GreedIndependence
import Destructure.Proofs.Matching.Mirroring
import Destructure.Proofs.Matching.Prospect
import Destructure.Proofs.Matching.Realization
import Destructure.Proofs.Matching.Rebuilding
import Destructure.Proofs.Matching.Repetition
import Destructure.Proofs.Matching.Settlement
import Destructure.Proofs.Matching.Stretch
import Destructure.Proofs.Matching.Tables
import Destructure.Proofs.Matching.Trail
import Destructure.Proofs.Matching.Turns
import Destructure.Proofs.Matching.Ways
import Destructure.Proofs.Pattern.Greed
import Destructure.Proofs.Pattern.Names
import Destructure.Proofs.Pattern.Numbering
import Destructure.Proofs.Pattern.Placement
import Destructure.Proofs.Pattern.Rows
import Destructure.Reading.Failure
import Destructure.Reading.Grammar
import Destructure.Reading.Pattern
import Destructure.Reading.Value
import Destructure.Regex.Basic
import Destructure.Regex.Expression
import Destructure.Regex.Footprint
import Destructure.Regex.Program
import Destructure.Regex.Reader
import Destructure.Regex.Search
import Destructure.Selection.Environment
import Destructure.Selection.Selector
import Destructure.Selection.Session
import Destructure.Text.Alphabetic
import Destructure.Text.Blank
import Destructure.Text.ByteRows
import Destructure.Text.CaseFolding
import Destructure.Text.Character
import Destructure.Text.CodeRanges
import Destructure.Text.DecimalDigit
import Destructure.Text.GraphemeExtend
import Destructure.Text.Numeric
import Destructure.Text.Quoted
import Destructure.Text.Unprintable
import Destructure.Text.WordCharacter
import Destructure.Token.Basic
import Destructure.Token.Lexer
import Destructure.Value.Basic
import Destructure.Value.Kind
import Destructure.Value.Printer
import Destructure.Proofs.Reading.Phrases
import Destructure.Proofs.Reading.Soundness
import Destructure.Proofs.Reading.Completeness
import Destructure.Proofs.Reading.Acceptance
import Destructure.Proofs.Pattern.Paths
import Destructure.Proofs.Pattern.Locations
import Destructure.Proofs.Pattern.WellFormedness
import Destructure.Proofs.Pattern.Verdict
import Destructure.Proofs.Number.ReadingBack
import Destructure.Proofs.Text.Quotation
import Destructure.Proofs.Token.Spelling
import Destructure.Proofs.Token.Numbers
import Destructure.Proofs.Token.Scanning
import Destructure.Proofs.Value.Parts
import Destructure.Proofs.Reading.Rendering
import Destructure.Proofs.Reading.ValueText
import Destructure.Proofs.Reading.PatternText
import Destructure.Proofs.Selection.Stacks
import Destructure.Proofs.Selection.FirstMatch
import Destructure.Proofs.Selection.Scoping
import Destructure.Proofs.Matching.Nesting
import Destructure.Proofs.Pattern.Units
import Destructure.Proofs.Matching.SafeSearch
import Destructure.Proofs.Matching.Fallbacks
import Destructure.Proofs.Matching.Engine
import Destructure.Proofs.Matching.Budget
import Destructure.Proofs.Matching.Termination
import Destructure.Proofs.Matching.Replacement
import Destructure.Proofs.Matching.PatternTurns
import Destructure.Proofs.Matching.Consultations
import Destructure.Proofs.Matching.Grouping
import Destructure.Proofs.Matching.Remainders
import Destructure.Proofs.Matching.RenamedWays
import Destructure.Proofs.Matching.Unrolling
import Destructure.Proofs.Matching.Occurrences
import Destructure.Proofs.Matching.RepeatedNames
import Destructure.Proofs.Matching.Tests
import Destructure.Proofs.Matching.Composites
import Destructure.Proofs.Token.Lexicon
import Destructure.Proofs.Token.Tiling
import Destructure.Proofs.Reading.Positions
import Destructure.Proofs.Reading.ValuePatterns
import Destructure.Proofs.Regex.Programs
import Destructure.Proofs.Regex.Runs
import Destructure.Proofs.Regex.Pieces
import Destructure.Proofs.Regex.Endings
import Destructure.Proofs.Regex.Enclosure
import Destructure.Proofs.Regex.WholeTexts
import Destructure.Proofs.Number.LowestTerms
import Destructure.Proofs.Reading.RegexText
import Destructure.Proofs.Reading.BareRegexes
import Destructure.Proofs.Value.Equality
import Destructure.Proofs.Matching.EqualValues
import Destructure.Proofs.Value.Associations
import Destructure.Proofs.Pattern.Links
import Destructure.Proofs.Matching.Surroundings
import Destructure.Proofs.Matching.TableContents
import Destructure.Proofs.Value.LineBreaks
import Destructure.Proofs.Matching.Provenance
import Destructure.Proofs.CommandLine.Reports
import Destructure.Proofs.Reading.Agreement
import Destructure.Proofs.Reading.Depth
import Destructure.Proofs.Matching.Marks
import Destructure.Proofs.Regex.Matches
import Destructure.Proofs.Matching.Tabulation
import Destructure.Proofs.Matching.LinkedRows
