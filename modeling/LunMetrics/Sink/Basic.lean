import LunMetrics.Metric.Descriptor
import LunMetrics.Sysfs

/- Where samples go. A station is a place that a cycle runs at: in each of its states the two file systems
   give their answers, and a sample handed over changes the state and is accepted or refused. A sink with
   a fixed tree is the special case that never changes the answers. -/
namespace LunMetrics

/-- Why a sample is refused. -/
inductive SinkFault
  | refused (message : String)
  | unknownMetric (name : Text)
  | wrongKind (name : Text) (expected got : ValueKind)
  | wrongLabels (name : Text) (expected got : Nat)
  | queueFull
  | negativeTimeout
  deriving DecidableEq, Repr

def SinkFault.message : SinkFault → String
  | .refused m => m
  | .unknownMetric n => str (Text.quoted ("Unknown metric descriptor ".toList ++ n))
  | .wrongKind n e g => s!"{str n} is a {e.name}, got {g.name}"
  | .wrongLabels n e g => s!"{str n} expects {e} label values, got {g}"
  | .queueFull => ""
  | .negativeTimeout => "'timeout' must be a non-negative number"

/-- What a cycle meets in a state: the answers of the file systems, and the hand-over of a sample, with
    the fault if it is refused. -/
structure Station (σ : Type) where
  sysfs : σ → Sysfs
  send : Sample → σ → σ × Option SinkFault

end LunMetrics
