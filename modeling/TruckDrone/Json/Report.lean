import TruckDrone.Json.Document
import TruckDrone.Json.Record
import TruckDrone.Report

/-! The JSON form of reports. -/

set_option autoImplicit false

namespace TruckDrone.Report

open Json Json.Reader

def pathsDocument (paths : List (List (List Nat))) : Document :=
  .list (paths.map fun routes => .list (routes.map fun stops => .list (stops.map .natural)))

def toDocument (report : Report Binary64) : Document := .record [
  ("problem", .text report.name),
  ("trucks_count", .natural report.trucks),
  ("drones_count", .natural report.drones),
  ("iterations", .natural report.iterations),
  ("tabu_size", .natural report.recency),
  ("cost", .float report.cost),
  ("truck_paths", pathsDocument report.truckPaths),
  ("drone_paths", pathsDocument report.dronePaths),
  ("feasible", .flag report.feasible),
  ("last_improved", .natural report.lastImproved)]

structure Draft where
  name : Option String := none
  trucks : Option Nat := none
  drones : Option Nat := none
  iterations : Option Nat := none
  recency : Option Nat := none
  cost : Option Binary64 := none
  truckPaths : Option (List (List (List Nat))) := none
  dronePaths : Option (List (List (List Nat))) := none
  feasible : Option Bool := none
  lastImproved : Option Nat := none

namespace Draft

def fields : List (RecordField Draft) := [
  .into "problem" text Draft.name fun draft name => { draft with name := some name },
  .into "trucks_count" natural Draft.trucks fun draft n => { draft with trucks := some n },
  .into "drones_count" natural Draft.drones fun draft n => { draft with drones := some n },
  .into "iterations" natural Draft.iterations fun draft n => { draft with iterations := some n },
  .into "tabu_size" natural Draft.recency fun draft n => { draft with recency := some n },
  .into "cost" float Draft.cost fun draft cost => { draft with cost := some cost },
  .into "truck_paths" (list (list (list natural))) Draft.truckPaths fun draft paths =>
    { draft with truckPaths := some paths },
  .into "drone_paths" (list (list (list natural))) Draft.dronePaths fun draft paths =>
    { draft with dronePaths := some paths },
  .into "feasible" flag Draft.feasible fun draft flag => { draft with feasible := some flag },
  .into "last_improved" natural Draft.lastImproved fun draft n =>
    { draft with lastImproved := some n }]

def finish (draft : Draft) : Option (Report Binary64) := do
  let name ← draft.name
  let trucks ← draft.trucks
  let drones ← draft.drones
  let iterations ← draft.iterations
  let recency ← draft.recency
  let cost ← draft.cost
  let truckPaths ← draft.truckPaths
  let dronePaths ← draft.dronePaths
  let feasible ← draft.feasible
  let lastImproved ← draft.lastImproved
  return {
    name, trucks, drones, iterations, recency, cost, truckPaths, dronePaths, feasible,
    lastImproved }

end Draft

def reader : Reader (Report Binary64) := record Draft.fields {} Draft.finish

def toJson (report : Report Binary64) : String := report.toDocument.toText .indented

def ofJson (text : String) : Except Refusal (Report Binary64) := whole reader text

end TruckDrone.Report
