import Gibbs.Assembly.Summary
import Gibbs.Decimal.Reading
import Gibbs.Expr.Operation
import Gibbs.Session
import Gibbs.Proofs.Model.ByName
import Gibbs.Proofs.Model.Dataflow
import Gibbs.Proofs.Chain.Trajectory
import Gibbs.Proofs.Chain.Prepared
import Gibbs.Proofs.Chain.Split
import Gibbs.Proofs.Chain.Pool
import Gibbs.Proofs.Chain.Interleaving
import Gibbs.Proofs.Chain.Progress
import Gibbs.Proofs.Chain.Parallel
import Gibbs.Proofs.Model.Displayable
import Gibbs.Proofs.Model.Acceptance
import Gibbs.Proofs.Model.Interpreter
import Gibbs.Proofs.Tensor.Letter
import Gibbs.Proofs.Tensor.Stack
import Gibbs.Proofs.Assembly.Recorded
import Gibbs.Proofs.Assembly.Variable
import Gibbs.Proofs.Assembly.Tensors
import Gibbs.Proofs.Assembly.Label
import Gibbs.Proofs.Assembly.Table
import Gibbs.Proofs.Assembly.Agreement
import Gibbs.Proofs.Expr.Lookup
import Gibbs.Proofs.Chain.Coupled
import Gibbs.Proofs.Model.Influence
import Gibbs.Proofs.Expr.Replace
import Gibbs.Proofs.Model.Inlining
import Gibbs.Proofs.Distribution.Draw
import Gibbs.Proofs.Chain.Invariant
import Gibbs.Chain.Sample
import Gibbs.Proofs.Model.Keeping
import Gibbs.Proofs.Assembly.Complete
import Gibbs.Proofs.Sample
import Gibbs.Proofs.Chain.Resume
import Gibbs.Proofs.Chain.Successive
import Gibbs.Proofs.Model.Renaming
import Gibbs.Proofs.Model.Reading
import Gibbs.Proofs.Model.Cache
import Gibbs.Proofs.Assembly.Labelled
import Gibbs.Proofs.Chain.Asking
import Gibbs.Proofs.Model.Closing
import Gibbs.Proofs.Starts
import Gibbs.Proofs.Expr.Deferred
import Gibbs.Proofs.Assembly.Kept
import Gibbs.Proofs.Chain.Counting
import Gibbs.Proofs.Expr.Names
import Gibbs.Proofs.Assembly.Components
import Gibbs.Proofs.Chain.Rejection
import Gibbs.Proofs.Model.NameErrors
