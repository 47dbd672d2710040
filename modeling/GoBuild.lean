import GoBuild.Context.Decode
import GoBuild.Main
import GoBuild.Selection
import GoBuild.Proofs.Directive.ErrorOffset
import GoBuild.Proofs.Directive.Size
import GoBuild.Proofs.Platform.Consistency
import GoBuild.Proofs.Report.Constraint
import GoBuild.Proofs.Search.Cgo
import GoBuild.Proofs.Search.Completeness
import GoBuild.Proofs.Search.FileName
import GoBuild.Proofs.Search.Frame
import GoBuild.Proofs.Search.Idempotence
import GoBuild.Proofs.Search.KeptCgo
import GoBuild.Proofs.Search.OneHalf
import GoBuild.Proofs.Search.ReleaseGate
import GoBuild.Proofs.Search.Soundness
import GoBuild.Proofs.Search.TagsOnly
import GoBuild.Proofs.Search.Unseen
import GoBuild.Proofs.Selection.HeaderCheck
import GoBuild.Proofs.Selection.Mentioned
import GoBuild.Proofs.Source.Leading
import GoBuild.Proofs.Source.LineEndings
import GoBuild.Proofs.Source.Recognition
import GoBuild.Proofs.Directive.Meaning
import GoBuild.Proofs.Source.Constraint
import GoBuild.Proofs.Source.FileName
import GoBuild.Proofs.Search.SingleTag
import GoBuild.Proofs.Source.PackageClause
import GoBuild.Proofs.CommandLine.GoVersion
import GoBuild.Proofs.Expr.Direction
import GoBuild.Proofs.Report.Line
import GoBuild.Proofs.CommandLine.Listing
