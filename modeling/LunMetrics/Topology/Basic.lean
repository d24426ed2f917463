import LunMetrics.Backstore.Basic
import LunMetrics.Sysfs

/- The export topology: targets, their portal groups, and the LUNs of an enabled group. A LUN is known by
   its key, which carries the export labels and the link to its storage object. -/
namespace LunMetrics

structure LunEntry where
  lun : Text
  link : BackstoreLink
  deriving DecidableEq, Repr

/-- A portal group; only an enabled one has LUNs. -/
structure PortGroup where
  tag : Text
  enabled : Bool
  luns : List LunEntry
  deriving DecidableEq, Repr

structure Target where
  iqn : Text
  groups : List PortGroup
  deriving DecidableEq, Repr

/-- A LUN of the whole topology with the storage object that it links to. -/
structure LunKey where
  iqn : Text
  tpgt : Text
  lun : Text
  link : BackstoreLink
  deriving DecidableEq, Repr

namespace LunKey

def ofEntry (iqn tag : Text) (e : LunEntry) : LunKey := ⟨iqn, tag, e.lun, e.link⟩

def exportLabels (k : LunKey) : List Text := [k.iqn, k.tpgt, k.lun]

/-- The kind of the storage object that the type token stands for. -/
def kind? (k : LunKey) : Option BackstoreKind := BackstoreKind.ofToken? k.link.store

end LunKey

/-- The export tree is not there, since its directory cannot be listed. -/
structure Absent where
  fault : SysfsFault
  deriving DecidableEq, Repr

def Absent.message (a : Absent) : String := s!"LIO iSCSI tree not available: {a.fault.message}"

end LunMetrics
