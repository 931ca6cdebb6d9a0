import RoadRouting.Dataset.Writer
import RoadRouting.Example.Avenues
import RoadRouting.Json.Value
import RoadRouting.Trip.Startup
import RoadRouting.Proofs.Trip.Consistency
import RoadRouting.Proofs.Network.Chart
import RoadRouting.Proofs.Network.Counts
import RoadRouting.Proofs.Network.Renaming
import RoadRouting.Proofs.Trip.Changes
import RoadRouting.Proofs.Network.TopSpeed
import RoadRouting.Proofs.Trip.Requests
import RoadRouting.Proofs.Trip.LastWrites
import RoadRouting.Proofs.Trip.Upkeep
import RoadRouting.Proofs.Trip.AnyOrder
import RoadRouting.Proofs.Dataset.Keys
import RoadRouting.Proofs.Store.Directories
import RoadRouting.Proofs.Dataset.Placement
import RoadRouting.Proofs.Dataset.Writing
import RoadRouting.Proofs.Dataset.RoundTrip
import RoadRouting.Proofs.Snap.Lossless
import RoadRouting.Proofs.Dataset.Unchanged
import RoadRouting.Proofs.Trip.Reopening
import RoadRouting.Proofs.Trip.Integrity
import RoadRouting.Proofs.Network.Tables
import RoadRouting.Proofs.Snap.Queries
import RoadRouting.Proofs.Float.Whole
import RoadRouting.Proofs.Network.Overestimates
import RoadRouting.Proofs.Network.Containment
import RoadRouting.Proofs.Trip.Steady
import RoadRouting.Proofs.Trip.History
import RoadRouting.Proofs.Network.Novelty
import RoadRouting.Proofs.Trip.Reports
import RoadRouting.Proofs.Dataset.Decoding
import RoadRouting.Proofs.Trip.FailedReads
import RoadRouting.Proofs.Snap.Optimum
import RoadRouting.Proofs.Network.Ending
import RoadRouting.Proofs.Network.StepBounds
import RoadRouting.Proofs.Dataset.Discovery
import RoadRouting.Proofs.Dataset.WholeTables
import RoadRouting.Proofs.Network.Refusals
import RoadRouting.Proofs.Trip.Weights
import RoadRouting.Proofs.Trip.Samples
import RoadRouting.Proofs.Trip.Corridors
import RoadRouting.Proofs.Trip.TwoWay
import RoadRouting.Proofs.Trip.Replays
import RoadRouting.Proofs.Trip.Fingerprints
import RoadRouting.Proofs.Decimal.Alphabet
import RoadRouting.Proofs.Speed.Limits
import RoadRouting.Proofs.Float.Numbers
