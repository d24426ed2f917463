import LunMetrics.Metric.Family
import LunMetrics.Sink.Basic

/- A sink that sorts samples into the families of one scrape. A sample has to name a known metric, to be of
   its kind, and to carry as many label values as its own descriptor has label names. -/
namespace LunMetrics

/-- Families under the names of their descriptors, in the order of the descriptors. -/
structure Families where
  entries : List (Text × Family)
  deriving DecidableEq, Repr

namespace Families

def ofNamespace (namespacePart : Text) : Families :=
  ⟨(Metric.descriptors namespacePart).map fun d => (d.name, Family.bare d)⟩

def toList (fs : Families) : List Family := fs.entries.map (·.2)

def knows (fs : Families) (name : Text) : Bool := fs.entries.any (·.1 = name)

def add (fs : Families) (s : Sample) : Families :=
  ⟨fs.entries.map fun e => if e.1 = s.descriptor.name then (e.1, e.2.add s.labels s.value) else e⟩

/-- What is wrong with a sample. -/
def check (fs : Families) (s : Sample) : Option SinkFault :=
  let d := s.descriptor
  if !fs.knows d.name then some (.unknownMetric d.name)
  else if s.kind ≠ d.kind then some (.wrongKind d.name d.kind s.kind)
  else if s.labels.length ≠ d.labelNames.length then
    some (.wrongLabels d.name d.labelNames.length s.labels.length)
  else none

/-- A sample is sorted in unless something is wrong with it. -/
def send (s : Sample) (fs : Families) : Families × Option SinkFault :=
  match fs.check s with
  | some f => (fs, some f)
  | none => (fs.add s, none)

/-- The station of a scrape: families take the samples while the file systems stand still. -/
def station (fs : Sysfs) : Station Families := ⟨fun _ => fs, send⟩

end Families
end LunMetrics
