import LunMetrics.Backstore.Basic
import LunMetrics.Topology.Layout
import LunMetrics.Sysfs

/- Why the storage object behind a LUN cannot be found out. -/
namespace LunMetrics

/-- An entry that identifies a storage object cannot be read, or the object that a device stands for is not
    there. -/
inductive LookupFault
  | udevPath (dirName number object : Text) (fault : SysfsFault)
  | rbdDevice (id : Text) (fault : SysfsFault)
  | rbdObject (id number object : Text)
  deriving DecidableEq, Repr

def LookupFault.message : LookupFault → String
  | .udevPath dir n o f => s!"{str dir}_{str n}/{str o} is missing {str Layout.udevPath}: {f.message}"
  | .rbdDevice id f => s!"Cannot read RBD device {str id}: {f.message}"
  | .rbdObject id n o =>
    s!"RBD device {str id} has no backstore {str BackstoreKind.rbd.dirName}_{str n}/{str o}"

/-- Why a LUN is not resolved: a fault that ends the cycle, or a device directory whose name is made of
    digits and yet no number. -/
inductive ResolveFault
  | lookup (fault : LookupFault)
  | deviceNumber (fault : Text.NumeralFault)
  deriving DecidableEq, Repr

end LunMetrics
