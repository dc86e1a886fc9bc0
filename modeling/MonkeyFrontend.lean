import MonkeyFrontend.CommandLine.Run
import MonkeyFrontend.Main
import MonkeyFrontend.Parser.Reader
import MonkeyFrontend.Source.Move
import MonkeyFrontend.Token.Stream
import MonkeyFrontend.Tree.Inspect
import MonkeyFrontend.Tree.Same
import MonkeyFrontend.Proofs.Check.Data
import MonkeyFrontend.Proofs.Check.Files
import MonkeyFrontend.Proofs.Check.Listing
import MonkeyFrontend.Proofs.Check.Settings
import MonkeyFrontend.Proofs.CommandLine.Outcomes
import MonkeyFrontend.Proofs.Json.Reading
import MonkeyFrontend.Proofs.Parser.Barrier
import MonkeyFrontend.Proofs.Parser.Blocks
import MonkeyFrontend.Proofs.Parser.Call
import MonkeyFrontend.Proofs.Parser.Completeness
import MonkeyFrontend.Proofs.Parser.Consistency
import MonkeyFrontend.Proofs.Parser.Display
import MonkeyFrontend.Proofs.Parser.Exact
import MonkeyFrontend.Proofs.Parser.Forward
import MonkeyFrontend.Proofs.Parser.Holes
import MonkeyFrontend.Proofs.Parser.Joining
import MonkeyFrontend.Proofs.Parser.Lookahead
import MonkeyFrontend.Proofs.Parser.Number
import MonkeyFrontend.Proofs.Parser.Ownership
import MonkeyFrontend.Proofs.Parser.Parameters
import MonkeyFrontend.Proofs.Parser.Relocation
import MonkeyFrontend.Proofs.Parser.Reports
import MonkeyFrontend.Proofs.Parser.Resuming
import MonkeyFrontend.Proofs.Parser.RoundTrip
import MonkeyFrontend.Proofs.Parser.Run
import MonkeyFrontend.Proofs.Parser.Stretches
import MonkeyFrontend.Proofs.Parser.Walk
import MonkeyFrontend.Proofs.Session.Entries
import MonkeyFrontend.Proofs.Session.Partition
import MonkeyFrontend.Proofs.Session.Replies
import MonkeyFrontend.Proofs.Source.Cutting
import MonkeyFrontend.Proofs.Source.Moving
import MonkeyFrontend.Proofs.Source.Separation
import MonkeyFrontend.Proofs.Source.Tiling
import MonkeyFrontend.Proofs.Text.Integer
import MonkeyFrontend.Proofs.Text.Portion
import MonkeyFrontend.Proofs.Text.Quoted
import MonkeyFrontend.Proofs.Tree.Consistent
import MonkeyFrontend.Proofs.Tree.Faithful
import MonkeyFrontend.Proofs.Tree.Inspect
