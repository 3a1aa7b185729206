import TruckDrone.Construction.NearestNeighbor
import TruckDrone.Construction.RandomDeal
import TruckDrone.Json.Model
import TruckDrone.Json.Report
import TruckDrone.Search.Solve
import TruckDrone.Proofs.Fault
import TruckDrone.Proofs.Neighborhood.Enumeration
import TruckDrone.Proofs.Plan.Replacement
import TruckDrone.Proofs.Neighborhood.Order
import TruckDrone.Proofs.Neighborhood.Reversal
import TruckDrone.Proofs.Admission
import TruckDrone.Proofs.Route
import TruckDrone.Proofs.Neighborhood.TailExchange
import TruckDrone.Proofs.Neighborhood.Relocation
import TruckDrone.Proofs.Neighborhood.Conservation
import TruckDrone.Proofs.Neighborhood.Recency
import TruckDrone.Proofs.Violation.Feasible
import TruckDrone.Proofs.Random.Lawful
import TruckDrone.Proofs.Construction.Tours
import TruckDrone.Proofs.Construction.RandomDeal
import TruckDrone.Proofs.Construction.NearestNeighbor
import TruckDrone.Proofs.Search.Lawful
import TruckDrone.Proofs.Search.Neighbors
import TruckDrone.Proofs.Search.RouteCount
import TruckDrone.Proofs.Search.Feasible
import TruckDrone.Proofs.Neighborhood.MoveHistory
import TruckDrone.Proofs.Neighborhood.Symmetry
import TruckDrone.Proofs.Construction.EveryDeal
import TruckDrone.Proofs.Neighborhood.Reordering
import TruckDrone.Proofs.Bounds.Search
import TruckDrone.Proofs.Instance.Unknown
import TruckDrone.Proofs.Json.Report
import TruckDrone.Proofs.Neighborhood.Cheapest
import TruckDrone.Proofs.Distance
import TruckDrone.Proofs.Instance.Served
import TruckDrone.Proofs.Json.Ensures
import TruckDrone.Proofs.Json.Route
import TruckDrone.Proofs.Neighborhood.EdgeOrder
import TruckDrone.Proofs.Construction.Turns
import TruckDrone.Proofs.Construction.Greedy
import TruckDrone.Proofs.Construction.Evenness
import TruckDrone.Proofs.Neighborhood.Restart
import TruckDrone.Proofs.Neighborhood.Slack
import TruckDrone.Proofs.Violation.Located
import TruckDrone.Proofs.Instance.Deltas
import TruckDrone.Proofs.Neighborhood.Distinct
import TruckDrone.Proofs.Neighborhood.BrokenEdge
import TruckDrone.Proofs.Distance.Filling
import TruckDrone.Proofs.Route.Attempts
import TruckDrone.Proofs.Search.Keys
