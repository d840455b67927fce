import MismatchReport.Main
import MismatchReport.Proofs.Chain.Sentence
import MismatchReport.Proofs.Command.Run
import MismatchReport.Proofs.Document.Growth
import MismatchReport.Proofs.Label.Rules
import MismatchReport.Proofs.Report.Colors
import MismatchReport.Proofs.Report.Gaps
import MismatchReport.Proofs.Report.LineFeeds
import MismatchReport.Proofs.Report.Renaming
import MismatchReport.Proofs.Source.Order
import MismatchReport.Proofs.Style.Canonical
import MismatchReport.Proofs.Tree.Siblings
import MismatchReport.Proofs.Tree.Tokens
import MismatchReport.Proofs.Tree.Order
import MismatchReport.Proofs.Source.Bounds
import MismatchReport.Proofs.Source.Locality
import MismatchReport.Proofs.Expansion.History
import MismatchReport.Proofs.Style.Markup
import MismatchReport.Proofs.Report.Sections
import MismatchReport.Proofs.Text.Collapse
