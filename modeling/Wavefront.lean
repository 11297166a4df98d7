import Wavefront.AlignedLanes
import Wavefront.Batch.Lanes
import Wavefront.Session
import Wavefront.Script.Fuel
import Wavefront.Proofs.MaskLanes
import Wavefront.Proofs.Moves
import Wavefront.Proofs.PathCondition
import Wavefront.Proofs.Code
import Wavefront.Proofs.Trace
import Wavefront.Proofs.Restoration
import Wavefront.Proofs.Retirement
import Wavefront.Proofs.Gated
import Wavefront.Proofs.LockStep
import Wavefront.Proofs.TripCount
import Wavefront.Proofs.SignMagnitude
import Wavefront.Proofs.Units
import Wavefront.Proofs.QuadLanes
import Wavefront.Proofs.Integral
import Wavefront.Proofs.ExactValue
import Wavefront.Proofs.IntegerRounding
import Wavefront.Proofs.Conversions
import Wavefront.Proofs.RegisterOps
import Wavefront.Proofs.LawfulLibrary
import Wavefront.Proofs.Alike
import Wavefront.Proofs.RoundingDirections
import Wavefront.Proofs.SaturatingCasts
import Wavefront.Proofs.CorrectRounding
import Wavefront.Proofs.UnsignedCasts
import Wavefront.Proofs.BatchOps
import Wavefront.Proofs.Link
import Wavefront.Proofs.Operations
import Wavefront.Proofs.Evaluation
import Wavefront.Proofs.Backends
import Wavefront.Proofs.Locality
import Wavefront.Proofs.LinkedFlow
import Wavefront.Proofs.LinkedScript
import Wavefront.Proofs.WordScripts
import Wavefront.Proofs.Idle
import Wavefront.Proofs.MaskedAssignment
import Wavefront.Proofs.MemoryAccess
import Wavefront.Proofs.IndexedRead
import Wavefront.Proofs.HalvesToEven
import Wavefront.Proofs.WordNumbers
import Wavefront.Proofs.Updates
import Wavefront.Proofs.WordDivision
import Wavefront.Proofs.WordShifts
import Wavefront.Proofs.WordOrder
import Wavefront.Proofs.LaneOrder
import Wavefront.Proofs.BatchEquality
import Wavefront.Proofs.FaithfulRounding
import Wavefront.Proofs.FlooredRemainder
import Wavefront.Proofs.WholeAndFraction
import Wavefront.Proofs.FractionalPart
import Wavefront.Proofs.SignsOfParts
import Wavefront.Proofs.SmoothStep
import Wavefront.Proofs.FlushGuards
import Wavefront.Proofs.GuardedScripts
import Wavefront.Proofs.Overrides
import Wavefront.Proofs.MaskWords
import Wavefront.Proofs.WordProducts
