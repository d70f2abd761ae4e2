import Signpost.Json
import Signpost.Token.Comparison
import Signpost.CommandLine
import Signpost.Main
import Signpost.Proofs.Rule.Anchoring
import Signpost.Proofs.Rule.Alignment
import Signpost.Proofs.Rule.Blocks
import Signpost.Proofs.Rule.PageReferences
import Signpost.Proofs.Dispatch.FirstMatch
import Signpost.Proofs.Dispatch.PagePaths
import Signpost.Proofs.Dispatch.Selected
import Signpost.Proofs.Dispatch.Declined
import Signpost.Proofs.Dispatch.Abstaining
import Signpost.Proofs.Dispatch.MoreRules
import Signpost.Proofs.Dispatch.Questions
import Signpost.Proofs.Dispatch.Exporting
import Signpost.Proofs.RouteTable.Editing
import Signpost.Proofs.Settings.Protection
import Signpost.Proofs.Rule.Literal
import Signpost.Proofs.Rule.CatchAll
import Signpost.Proofs.Rule.Choices
import Signpost.Proofs.Rule.PagesOnly
import Signpost.Proofs.Rule.Wildcards
import Signpost.Proofs.Rule.Remainder
import Signpost.Proofs.Token.Capturing
import Signpost.Proofs.Token.Narrowing
import Signpost.Proofs.Store.Entries
import Signpost.Proofs.Token.Outcomes
import Signpost.Proofs.Token.ChannelConstraints
import Signpost.Proofs.Token.Joining
import Signpost.Proofs.Context.LastWord
import Signpost.Proofs.Variable.Rows
import Signpost.Proofs.Token.NumericEquality
import Signpost.Proofs.Token.Ordering
import Signpost.Proofs.Dispatch.Sparing
import Signpost.Proofs.Template.Descriptors
import Signpost.Proofs.Rule.Factoring
