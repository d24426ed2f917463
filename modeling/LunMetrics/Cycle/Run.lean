import LunMetrics.Backstore.Resolve
import LunMetrics.Cycle.Emission
import LunMetrics.Cycle.Walk
import LunMetrics.Statistics.Reading

/- One collection cycle. The LUNs of a walk are updated one by one: resolved, counted, emitted. This file

   1. updates one LUN (`updateLun`), which sends three samples or, where the storage object has no
      counterpart, none;
   2. runs the cycle (`run`): without an export tree nothing happens, trouble at a LUN ends the cycle and
      keeps what was sent, and a `CycleFault` ends it with nothing returned. The result is the number of LUNs
      with samples. -/
namespace LunMetrics

/-- What a cycle works on: the mount points, and the namespace of the metrics. -/
structure Exporter where
  roots : Roots
  namespacePart : Text
  deriving DecidableEq, Repr

namespace Cycle

variable {σ : Type}

/-- Why a LUN is not updated. -/
inductive LunFault
  | trouble (trouble : Trouble)
  | cycle (fault : CycleFault)
  deriving DecidableEq, Repr

def LunFault.ofResolve : ResolveFault → LunFault
  | .lookup f => .trouble (.lookup f)
  | .deviceNumber f => .cycle (.deviceNumber f)

/-- The samples of one LUN, taken as one of the given kind; the result says whether there were any. -/
def updateLun (st : Station σ) (x : Exporter) (key : LunKey) (kind : BackstoreKind) (s : σ) :
    Outcome σ LunFault Bool :=
  let resolution := Backstore.resolve (st.sysfs s) x.roots key.link kind
  match resolution.value with
  | .error f => ⟨s, resolution.events, .error (.ofResolve f)⟩
  | .ok none => ⟨s, resolution.events ++ [.resolved key none], .ok false⟩
  | .ok (some identity) =>
    let reading := Statistics.read (st.sysfs s) x.roots key.iqn key.tpgt key.lun
    let events := resolution.events ++ [.resolved key (some identity)] ++ reading.events
    match reading.value with
    | .error f => ⟨s, events, .error (.trouble (.stats f))⟩
    | .ok counters =>
      let o := Emission.emit st.send x.namespacePart identity key counters s
      ⟨o.state, events ++ o.events, (o.result.mapError .cycle).map fun _ => true⟩

/-- The stops of a walk visited after `n` LUNs had samples. -/
def visit (st : Station σ) (x : Exporter) : List Item → Nat → σ → Outcome σ CycleFault Nat
  | [], n, s => ⟨s, [], .ok n⟩
  | .note e :: rest, n, s => (visit st x rest n s).after [e]
  | .lun key kind :: rest, n, s =>
    let step := updateLun st x key kind s
    match step.result with
    | .ok sent => (visit st x rest (if sent then n + 1 else n) step.state).after step.events
    | .error (.trouble t) => ⟨step.state, step.events ++ [.cycleAborted n t], .ok n⟩
    | .error (.cycle f) => ⟨step.state, step.events, .error f⟩

/-- One cycle. -/
def run (st : Station σ) (x : Exporter) (s : σ) : Outcome σ CycleFault Nat :=
  let walk := Walk.items (st.sysfs s) x.roots
  match walk.value with
  | .error a => ⟨s, walk.events ++ [.subsystemAbsent a], .ok 0⟩
  | .ok items => (visit st x items 0 s).after walk.events

end Cycle
end LunMetrics
