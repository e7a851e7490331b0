import GoIdiom.Main
import GoIdiom.Rule.Catalog
import GoIdiom.Proofs.TrailingDirective
import GoIdiom.Proofs.MatcherFailure
import GoIdiom.Proofs.Deduplication
import GoIdiom.Proofs.RuleIndependence
import GoIdiom.Proofs.Lexing.Marks
import GoIdiom.Proofs.Lexing.LineEnds
import GoIdiom.Proofs.Printing.Reading
import GoIdiom.Proofs.Cancellation.LabelledBreaks
import GoIdiom.Proofs.Cancellation.LoopHeaders
import GoIdiom.Proofs.Cancellation.AddedWaits
import GoIdiom.Proofs.Dealing
import GoIdiom.Proofs.Forest.Files
import GoIdiom.Proofs.FindingPlaces
import GoIdiom.Proofs.Attribution
import GoIdiom.Proofs.Joining
import GoIdiom.Proofs.Configuration
import GoIdiom.Proofs.DiscoveredFiles
import GoIdiom.Proofs.Spellings
import GoIdiom.Proofs.LineFeeds
import GoIdiom.Proofs.Pool
import GoIdiom.Proofs.Reports
import GoIdiom.Proofs.Absorption
import GoIdiom.Proofs.DirectiveTexts
import GoIdiom.Proofs.Indexed.Statements
import GoIdiom.Proofs.Indexed.Scanners
import GoIdiom.Proofs.BracketWords
import GoIdiom.Proofs.Headers.Statements
import GoIdiom.Proofs.NamedLists
import GoIdiom.Proofs.Assignments.Recording
import GoIdiom.Proofs.ErrorFormats
import GoIdiom.Proofs.StandaloneDirectives
import GoIdiom.Proofs.GuardLiterals
import GoIdiom.Proofs.Nesting.Functions
import GoIdiom.Proofs.OneLine.Findings
import GoIdiom.Proofs.Rendering.Rereading
