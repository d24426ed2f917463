import LunMetrics.Path

/- Where things stand below the mount points of the two pseudo file systems. The names of directory entries
   are made of a fixed beginning and a free rest (`groupStart`, `lunStart`), so a path can be rebuilt from
   labels (`Roots.statistics`). -/
namespace LunMetrics

/-- The two mount points. -/
structure Roots where
  sysfs : Text
  configfs : Text
  deriving DecidableEq, Repr

namespace Layout

def iqnStart : Text := "iqn".toList
def groupStart : Text := "tpgt_".toList
def lunDir : Text := "lun".toList
def lunStart : Text := "lun_".toList
def enable : Text := "enable".toList
def enabledValue : Text := "1".toList
def portStatistics : Text := "statistics/scsi_tgt_port".toList
def readUnits : Text := "read_mbytes".toList
def writeUnits : Text := "write_mbytes".toList
def commands : Text := "in_cmds".toList
def udevPath : Text := "udev_path".toList
def pool : Text := "pool".toList
def image : Text := "name".toList

end Layout

namespace Roots

def standard : Roots := ⟨"/sys".toList, "/sys/kernel/config".toList⟩

def iscsi (r : Roots) : Text := Path.join r.configfs "target/iscsi".toList

def core (r : Roots) : Text := Path.join r.configfs "target/core".toList

def rbdDevices (r : Roots) : Text := Path.join r.sysfs "devices/rbd".toList

def object (r : Roots) (dirName number object : Text) : Text :=
  Path.joinAll r.core [dirName ++ '_' :: number, object]

def statistics (r : Roots) (iqn tpgt lun : Text) : Text :=
  Path.joinAll r.iscsi
    [iqn, Layout.groupStart ++ tpgt, Layout.lunDir, Layout.lunStart ++ lun, Layout.portStatistics]

end Roots
end LunMetrics
