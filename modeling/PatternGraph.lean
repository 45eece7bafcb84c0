import PatternGraph.Main
import PatternGraph.Proofs.Graph.Places
import PatternGraph.Proofs.Graph.Verdict
import PatternGraph.Proofs.Search.AllMatches
import PatternGraph.Proofs.Search.Modes
import PatternGraph.Proofs.Search.UndoLog
import PatternGraph.Proofs.Search.WholeText
import PatternGraph.Suite.Collection
import PatternGraph.Suite.Engines
import PatternGraph.Suite.Report
import PatternGraph.Proofs.Search.Activation
import PatternGraph.Proofs.Search.Spans
import PatternGraph.Proofs.Cursor.Stream
import PatternGraph.Proofs.Search.Correspondence
import PatternGraph.Proofs.Search.Untagging
import PatternGraph.Proofs.Search.Echo
import PatternGraph.Proofs.Search.Reuse
import PatternGraph.Proofs.Interval.Canonical
import PatternGraph.Proofs.Pattern.CharClass
import PatternGraph.Proofs.Search.TokenLoop
import PatternGraph.Proofs.Graph.Limits
import PatternGraph.Proofs.Graph.GroupTags
import PatternGraph.Proofs.Search.Following
import PatternGraph.Proofs.Search.LiteralMatches
import PatternGraph.Proofs.Pattern.PairScan
import PatternGraph.Proofs.Pattern.QuantifierText
import PatternGraph.Proofs.Search.Scanning
import PatternGraph.Proofs.Graph.Session
import PatternGraph.Proofs.Suite.Answers
import PatternGraph.Proofs.Suite.Records
import PatternGraph.Proofs.CommandLine.Rearranging
import PatternGraph.Proofs.Pattern.Numerals
import PatternGraph.Proofs.CommandLine.Marking
import PatternGraph.Proofs.Cursor.Requests
