import LunMetrics.Backstore.Basic

/- Metric descriptors. For every kind of backstore there are three: operations, bytes read and bytes written.
   Their names are made of a namespace, the kind's subsystem and the counter (`fullName`), their labels are
   the export labels followed by the kind's own. -/
namespace LunMetrics

/-- What a metric's values do: only grow, or go up and down. -/
inductive ValueKind
  | counter
  | gauge
  deriving DecidableEq, Repr

def ValueKind.name : ValueKind → String
  | .counter => "counter"
  | .gauge => "gauge"

/-- One exported metric. -/
structure Descriptor where
  name : Text
  documentation : Text
  labelNames : List Text
  kind : ValueKind
  deriving DecidableEq, Repr

/-- The counters of a LUN, in the order in which descriptors are listed. -/
inductive Counter
  | iops
  | read
  | write
  deriving DecidableEq, Repr

namespace Counter

def all : List Counter := [.iops, .read, .write]

def name : Counter → Text
  | .iops => "iops_total".toList
  | .read => "read_total".toList
  | .write => "write_total".toList

def describe : Counter → Text
  | .iops => "transport operations.".toList
  | .read => "Read in byte.".toList
  | .write => "Write in byte.".toList

end Counter

namespace BackstoreKind

def subsystem (k : BackstoreKind) : Text := "lio_".toList ++ k.name

def title : BackstoreKind → Text
  | .fileio => "FileIO".toList
  | .iblock => "IBlock".toList
  | .rbd => "RBD".toList
  | .rdmcp => "Memory Copy RAMDisk".toList

/-- The names of the labels that identify a storage object of a kind. -/
def labelNames : BackstoreKind → List Text
  | .fileio => ["fileio".toList, "object".toList, "filename".toList]
  | .iblock => ["iblock".toList, "object".toList, "blockname".toList]
  | .rbd => ["rbd".toList, "pool".toList, "image".toList]
  | .rdmcp => ["rdmcp".toList, "object".toList]

end BackstoreKind

namespace Metric

/-- The names of the labels that tell where a LUN is exported. -/
def exportLabelNames : List Text := ["iqn".toList, "tpgt".toList, "lun".toList]

/-- The parts of a name that are not empty, joined with underscores. -/
def fullName (namespacePart subsystem name : Text) : Text :=
  ['_'].intercalate ([namespacePart, subsystem, name].filter (· ≠ []))

def standardNamespace : Text := "node".toList

/-- The descriptor of a counter of a kind of backstore in a namespace. -/
def descriptor (namespacePart : Text) (k : BackstoreKind) (c : Counter) : Descriptor where
  name := fullName namespacePart k.subsystem c.name
  documentation := "iSCSI ".toList ++ k.title ++ " backstore ".toList ++ c.describe
  labelNames := exportLabelNames ++ k.labelNames
  kind := .counter

def descriptorsOf (namespacePart : Text) (k : BackstoreKind) : List Descriptor :=
  Counter.all.map (descriptor namespacePart k)

def descriptors (namespacePart : Text) : List Descriptor :=
  BackstoreKind.all.flatMap (descriptorsOf namespacePart)

end Metric

/-- One value of a metric, with a value for each of its labels. -/
structure Sample where
  descriptor : Descriptor
  kind : ValueKind
  value : Int
  labels : List Text
  deriving DecidableEq, Repr

end LunMetrics
