import DirectSearch.Demo
import DirectSearch.Formula
import DirectSearch.Main
import DirectSearch.Search.Messages
import DirectSearch.Journal.Writer
import DirectSearch.SimplexSearch.ByHand
import DirectSearch.Proofs.Binary64.Nearest
import DirectSearch.Proofs.Binary64.Word
import DirectSearch.Proofs.Binary64.Arithmetic
import DirectSearch.Proofs.Binary64.Smallest
import DirectSearch.Proofs.PollSet.Geometry
import DirectSearch.Proofs.MeshSearch.Merit
import DirectSearch.Proofs.MeshSearch.MeshSize
import DirectSearch.Proofs.MeshSearch.Stall
import DirectSearch.Proofs.MeshSearch.Trials
import DirectSearch.Proofs.MeshSearch.Slope
import DirectSearch.Proofs.MeshSearch.History
import DirectSearch.Proofs.MeshSearch.Interrupted
import DirectSearch.Proofs.MeshSearch.Overflow
import DirectSearch.Proofs.SimplexSearch.Best
import DirectSearch.Proofs.SimplexSearch.Convex
import DirectSearch.Proofs.SimplexSearch.Mean
import DirectSearch.Proofs.SimplexSearch.Replacement
import DirectSearch.Proofs.SimplexSearch.Restart
import DirectSearch.Proofs.SimplexSearch.Succession
import DirectSearch.Proofs.SimplexSearch.Affine
import DirectSearch.Proofs.Search.Budgets
import DirectSearch.Proofs.Search.Truncation
import DirectSearch.Proofs.Search.Ranks
import DirectSearch.Proofs.Search.Raised
import DirectSearch.Proofs.Search.Verdicts
import DirectSearch.Proofs.Search.Rows
import DirectSearch.Proofs.Problem.Constraints
import DirectSearch.Proofs.Problem.WellFormed
import DirectSearch.Proofs.Binary64.Differences
import DirectSearch.Proofs.Problem.Violation
import DirectSearch.Proofs.Problem.Feasible
import DirectSearch.Proofs.Problem.Joined
import DirectSearch.Proofs.Problem.Distance
import DirectSearch.Proofs.Simplex.Gradient
import DirectSearch.Proofs.Problem.Mirrored
import DirectSearch.Proofs.Problem.Weight
import DirectSearch.Proofs.Journal.Headers
