import LunMetrics.Metric.Descriptor

/- Metric families: the samples of one metric in one scrape. A counter's family is named without the `_total`
   that its samples end in. -/
namespace LunMetrics

def totalEnding : Text := "_total".toList

/-- A sample in its family: its name, its labels by name, and its value. -/
structure FamilySample where
  name : Text
  labels : List (Text × Text)
  value : Int
  deriving DecidableEq, Repr

structure Family where
  name : Text
  kind : ValueKind
  documentation : Text
  labelNames : List Text
  samples : List FamilySample
  deriving DecidableEq, Repr

/-- A metric needs a name. -/
structure EmptyName where
  deriving DecidableEq, Repr

def EmptyName.message (_ : EmptyName) : String := "metric name cannot be empty"

namespace Family

/-- A name without one `_total` at its end. -/
def stripTotal (name : Text) : Text :=
  match Text.after? totalEnding.reverse name.reverse with
  | some rest => rest.reverse
  | none => name

/-- The name of a descriptor's family. -/
def nameFor (d : Descriptor) : Text :=
  match d.kind with
  | .counter => stripTotal d.name
  | .gauge => d.name

/-- The family of a descriptor, without samples and with whatever name it comes to. -/
def bare (d : Descriptor) : Family := ⟨nameFor d, d.kind, d.documentation, d.labelNames, []⟩

/-- The family of a descriptor, without samples. -/
def ofDescriptor (d : Descriptor) : Except EmptyName Family :=
  if nameFor d = [] then .error {} else .ok (bare d)

def sampleName (f : Family) : Text :=
  match f.kind with
  | .counter => f.name ++ totalEnding
  | .gauge => f.name

/-- The family with one more sample; label names without a value, and values without a name, are dropped. -/
def add (f : Family) (labels : List Text) (value : Int) : Family :=
  { f with samples := f.samples ++ [⟨f.sampleName, f.labelNames.zip labels, value⟩] }

end Family
end LunMetrics
