import LunMetrics.Sysfs

/- The counters of a LUN, as they are reported: mebibytes read, mebibytes written, commands. -/
namespace LunMetrics

/-- The three counters of a LUN. -/
structure Counters where
  readUnits : Int
  writeUnits : Int
  ops : Int
  deriving DecidableEq, Repr

/-- The counters of a LUN are missing or no unsigned integers. -/
structure StatsFault where
  iqn : Text
  tpgt : Text
  lun : Text
  cause : CounterFault
  deriving DecidableEq, Repr

def StatsFault.message (f : StatsFault) : String :=
  s!"Port statistics unavailable for {str f.iqn}/{str f.tpgt}/{str f.lun}: {f.cause.message}"

end LunMetrics
