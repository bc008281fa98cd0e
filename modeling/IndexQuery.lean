import IndexQuery.Main
import IndexQuery.Proofs.Pass.FlatMapScope
import IndexQuery.Proofs.Pass.QuantifierRefinement
import IndexQuery.Proofs.Encoding.RoundTrip
import IndexQuery.Proofs.Pass.Frames
import IndexQuery.Proofs.Pass.Registrations
import IndexQuery.Proofs.Pass.PlainQuantifier
import IndexQuery.Proofs.Pass.QuantifierFaults
import IndexQuery.Proofs.Pass.MarkerComparisons
import IndexQuery.Proofs.Pass.PassesCommute
import IndexQuery.Proofs.Pass.Identities
import IndexQuery.Proofs.Pass.FlatMapIdentities
import IndexQuery.Proofs.Pass.Reencoding
import IndexQuery.Proofs.Command.Piping
import IndexQuery.Proofs.Pass.CarriedMarkers
import IndexQuery.Proofs.Pass.QuantifierRoots
import IndexQuery.Proofs.Pass.FlatMapLeaves
import IndexQuery.Proofs.Pass.FlatMapParameters
import IndexQuery.Proofs.Pass.FlatMapAcceptance
import IndexQuery.Proofs.Pass.QuantifierAcceptance
import IndexQuery.Proofs.Pass.QuantifierFrame
import IndexQuery.Proofs.Command.ChangedAnswer
import IndexQuery.Proofs.Expr.FreeRoots
import IndexQuery.Proofs.Pass.PathRenaming
import IndexQuery.Proofs.Pass.FlatMapRoots
import IndexQuery.Proofs.Pass.FlatMapChains
import IndexQuery.Proofs.Pass.PairSelectors
import IndexQuery.Proofs.Pass.FlatMapTypes
import IndexQuery.Proofs.Pass.QuantifierTypes
import IndexQuery.Proofs.Encoding.Grammar
import IndexQuery.Proofs.Pass.PairNames
import IndexQuery.Proofs.Text.Filling
import IndexQuery.Proofs.Text.LiteralTexts
