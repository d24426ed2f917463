import LunMetrics.Topology.Discovery

/- The walk over the exported LUNs. The topology is read as a whole before the first LUN; what follows is
   its itinerary, the LUNs of the enabled groups that are of a known kind, with the notes made between
   them. -/
namespace LunMetrics

/-- A stop on the way: something to note, or a LUN. -/
inductive Item
  | note (event : Event)
  | lun (key : LunKey) (kind : BackstoreKind)
  deriving DecidableEq, Repr

namespace Item

/-- The stops for one LUN of an enabled group. -/
def ofLun (key : LunKey) : List Item :=
  .note (.lunWalked key) ::
    match key.kind? with
    | some kind => [.lun key kind]
    | none => [.note (.kindSkipped key.link.store)]

def ofTarget (t : Target) : List Item :=
  .note (.targetWalked t.iqn) ::
    (t.groups.filter (·.enabled)).flatMap fun g =>
      g.luns.flatMap fun e => ofLun (LunKey.ofEntry t.iqn g.tag e)

def ofTargets (ts : List Target) : List Item := ts.flatMap ofTarget

def luns (items : List Item) : List (LunKey × BackstoreKind) :=
  items.filterMap fun
    | .note _ => none
    | .lun key kind => some (key, kind)

def notes (items : List Item) : List Event :=
  items.filterMap fun
    | .note e => some e
    | .lun .. => none

end Item

/-- A walk: not begun, or with the stops that are left. -/
inductive Walk
  | ready
  | under (items : List Item)
  deriving DecidableEq, Repr

namespace Walk

open Logged

def items (fs : Sysfs) (roots : Roots) : Logged (Except Absent (List Item)) := do
  let topology ← Topology.read fs roots
  pure (topology.map Item.ofTargets)

def luns (fs : Sysfs) (roots : Roots) : Logged (Except Absent (List (LunKey × BackstoreKind))) :=
  let walk := items fs roots
  match walk.value with
  | .error a => ⟨walk.events, .error a⟩
  | .ok is => ⟨walk.events ++ Item.notes is, .ok (Item.luns is)⟩

/-- The next LUN among the stops, with the stops after it. -/
def advance : List Item → Logged (Option (LunKey × BackstoreKind) × List Item)
  | [] => pure (none, [])
  | .note e :: rest => do
    note e
    advance rest
  | .lun key kind :: rest => pure (some (key, kind), rest)

/-- The next LUN of a walk. A walk that fails to begin has ended. -/
def next (fs : Sysfs) (roots : Roots) (w : Walk) :
    Logged (Walk × Except Absent (Option (LunKey × BackstoreKind))) := do
  let left ← match w with
    | .under is => pure (.ok is)
    | .ready => items fs roots
  match left with
  | .error a => pure (.under [], .error a)
  | .ok is => do
    let (found, rest) ← advance is
    pure (.under rest, .ok found)

end Walk
end LunMetrics
