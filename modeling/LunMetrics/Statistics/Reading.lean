import LunMetrics.Logged

/- Reading the counters of a LUN. They are read in a fixed order, and the first that fails is the cause that
   is told. -/
namespace LunMetrics.Statistics

open Logged

/-- The three counters in the directory `dir`. -/
def readIn (fs : Sysfs) (dir : Text) : Except CounterFault (Nat × Nat × Nat) := do
  let read ← fs.natural (Path.join dir Layout.readUnits)
  let write ← fs.natural (Path.join dir Layout.writeUnits)
  let ops ← fs.natural (Path.join dir Layout.commands)
  return (read, write, ops)

def read (fs : Sysfs) (roots : Roots) (iqn tpgt lun : Text) : Logged (Except StatsFault Counters) :=
  match readIn fs (roots.statistics iqn tpgt lun) with
  | .error cause => pure (.error ⟨iqn, tpgt, lun, cause⟩)
  | .ok (read, write, ops) => do
    note (.countersRead iqn tpgt lun read write ops)
    pure (.ok ⟨read, write, ops⟩)

end LunMetrics.Statistics
