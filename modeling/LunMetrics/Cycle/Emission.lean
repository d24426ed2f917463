import LunMetrics.Logged
import LunMetrics.Number.Binary64
import LunMetrics.Sink.Basic

/- Handing over the samples of one LUN. All three counters become doubles before the first sample is sent;
   then the samples for bytes read, bytes written and operations are sent in this order, up to the first
   that is refused. -/
namespace LunMetrics

/-! Outcomes. -/

/-- What a part of a run leaves behind: the state, what was noted, and a value or the fault that ended it. -/
structure Outcome (σ ε α : Type) where
  state : σ
  events : List Event
  result : Except ε α

namespace Outcome

variable {σ ε α : Type}

/-- The outcome with events that were noted before it. -/
def after (es : List Event) (o : Outcome σ ε α) : Outcome σ ε α := { o with events := es ++ o.events }

@[simp] theorem state_after (es : List Event) (o : Outcome σ ε α) : (o.after es).state = o.state := rfl
@[simp] theorem events_after (es : List Event) (o : Outcome σ ε α) : (o.after es).events = es ++ o.events := rfl
@[simp] theorem result_after (es : List Event) (o : Outcome σ ε α) : (o.after es).result = o.result := rfl

end Outcome

/-- What a cycle does not survive: a device name of digits that is no number, a counter too large for a
    double, or a refused sample. -/
inductive CycleFault
  | deviceNumber (fault : Text.NumeralFault)
  | overflow
  | sink (metric : Text) (fault : SinkFault)
  deriving DecidableEq, Repr

def CycleFault.message : CycleFault → String
  | .deviceNumber f => f.message
  | .overflow => "int too large to convert to float"
  | .sink m f => s!"Failed to send {str m}: {f.message}"

namespace Emission

/-! Values. -/

/-- The counters of a LUN as doubles, with the units turned into bytes. -/
structure Values where
  read : Int
  write : Int
  ops : Int
  deriving DecidableEq, Repr

/-- The counters as doubles, if all three are finite. -/
def values? (c : Counters) : Option Values := do
  let read ← Binary64.bytesOfUnits? c.readUnits
  let write ← Binary64.bytesOfUnits? c.writeUnits
  let ops ← Binary64.ofInt? c.ops
  return ⟨read, write, ops⟩

theorem values?_eq_some_iff (c : Counters) (v : Values) :
    values? c = some v ↔ Binary64.bytesOfUnits? c.readUnits = some v.read ∧
      Binary64.bytesOfUnits? c.writeUnits = some v.write ∧ Binary64.ofInt? c.ops = some v.ops := by
  obtain ⟨read, write, ops⟩ := v
  unfold values?
  cases Binary64.bytesOfUnits? c.readUnits <;> cases Binary64.bytesOfUnits? c.writeUnits <;>
    cases Binary64.ofInt? c.ops <;> simp

theorem values?_eq_none_iff (c : Counters) :
    values? c = none ↔ Binary64.bytesOfUnits? c.readUnits = none ∨ Binary64.bytesOfUnits? c.writeUnits = none ∨
      Binary64.ofInt? c.ops = none := by
  unfold values?
  cases Binary64.bytesOfUnits? c.readUnits <;> cases Binary64.bytesOfUnits? c.writeUnits <;>
    cases Binary64.ofInt? c.ops <;> simp

def Values.get (v : Values) : Counter → Int
  | .iops => v.ops
  | .read => v.read
  | .write => v.write

/-! Samples. -/

def order : List Counter := [.read, .write, .iops]

def labels (identity : Identity) (key : LunKey) : List Text := key.exportLabels ++ identity.labelValues

def samples (namespacePart : Text) (identity : Identity) (key : LunKey) (v : Values) : List Sample :=
  order.map fun c =>
    ⟨Metric.descriptor namespacePart identity.kind c, .counter, v.get c, labels identity key⟩

/-- Samples sent up to the first refused one. -/
def sendAll {σ : Type} (send : Sample → σ → σ × Option SinkFault) : List Sample → σ → σ × Except CycleFault Unit
  | [], s => (s, .ok ())
  | x :: xs, s =>
    match send x s with
    | (s', none) => sendAll send xs s'
    | (s', some f) => (s', .error (.sink x.descriptor.name f))

def emit {σ : Type} (send : Sample → σ → σ × Option SinkFault) (namespacePart : Text) (identity : Identity)
    (key : LunKey) (counters : Counters) (s : σ) : Outcome σ CycleFault Unit :=
  match values? counters with
  | none => ⟨s, [], .error .overflow⟩
  | some v =>
    let (s', result) := sendAll send (samples namespacePart identity key v) s
    ⟨s', [.emitting identity.kind v.read v.write v.ops (labels identity key)], result⟩

end Emission
end LunMetrics
