import Downhill.Bindings.Lemmas
import Downhill.Expr.Render
import Downhill.Expr.Shape
import Downhill.Observer.Cancellation
import Downhill.Sampling.Batch
import Downhill.Sampling.Grid
import Downhill.Sampling.Scatter
import Downhill.Proofs.Expr.Dual
import Downhill.Proofs.Descent.Roots
import Downhill.Proofs.Descent.Evaluation
import Downhill.Proofs.Descent.Resumption
import Downhill.Proofs.Float.Division
import Downhill.Proofs.Float.Subtraction
import Downhill.Proofs.Descent.Armijo
import Downhill.Proofs.Float.Sums
import Downhill.Proofs.Descent.Decrease
import Downhill.Proofs.Descent.NotANumber
import Downhill.Proofs.Descent.Standstill
import Downhill.Proofs.Expr.Construction
import Downhill.Proofs.Descent.Limits
import Downhill.Proofs.Descent.Inertness
import Downhill.Proofs.Descent.Transcript
import Downhill.Proofs.Descent.Degeneracy
import Downhill.Proofs.Float.Error
import Downhill.Proofs.Float.Integers
import Downhill.Proofs.Sampling.Ticks
import Downhill.Proofs.Sampling.Product
import Downhill.Proofs.Sampling.Ends
import Downhill.Proofs.Descent.Blowup
import Downhill.Proofs.Expr.Residuals
import Downhill.Proofs.Expr.Negation
import Downhill.Proofs.Descent.Acceptance
import Downhill.Proofs.Expr.Partials
import Downhill.Proofs.Descent.Renaming
import Downhill.Proofs.Sampling.Scatter
import Downhill.Proofs.Expr.Rendering
import Downhill.Proofs.Expr.Dependence
import Downhill.Proofs.Expr.Rebuilding
