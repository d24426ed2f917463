import LunMetrics.Level
import LunMetrics.Topology.Basic
import LunMetrics.Statistics.Basic
import LunMetrics.Backstore.Fault

/- What a run notes on its way, as causes; the wording and the severity of each stand here. -/
namespace LunMetrics

/-- Why a cycle stops at a LUN and keeps what it has sent. -/
inductive Trouble
  | lookup (fault : LookupFault)
  | stats (fault : StatsFault)
  deriving DecidableEq, Repr

def Trouble.message : Trouble → String
  | .lookup f => f.message
  | .stats f => f.message

inductive Event
  | targetGone (path : Text)
  | groupSeen (path : Text) (enabled : Bool)
  | strangeLink (path target : Text)
  | noLink (path : Text)
  | noRbdTree (path : Text)
  | rbdMatch (object id : Text)
  | noRbdMatch (object : Text)
  | countersRead (iqn tpgt lun : Text) (read write ops : Nat)
  | targetWalked (iqn : Text)
  | lunWalked (key : LunKey)
  | kindSkipped (store : Text)
  | resolved (key : LunKey) (identity : Option Identity)
  | emitting (kind : BackstoreKind) (read write ops : Int) (labels : List Text)
  | subsystemAbsent (absent : Absent)
  | cycleAborted (emitted : Nat) (trouble : Trouble)
  | collecting
  | collected (emitted : Nat)
  | badAddress (message : String)
  | serving (host : Text) (port : Nat) (roots : Roots)
  | interrupted
  deriving DecidableEq, Repr

namespace Event

def level : Event → Level
  | .cycleAborted .. => .warning
  | .badAddress .. => .error
  | .serving .. | .interrupted => .info
  | _ => .debug

/-- Whether a group is enabled, in messages. -/
def truth (on : Bool) : String := if on then "True" else "False"

def sixPlaces (z : Int) : String := s!"{z}.000000"

def message : Event → String
  | .targetGone p => s!"Target {str p} disappeared during scan"
  | .groupSeen p on => s!"lio: iscsi {str p} isEnable={truth on}"
  | .strangeLink p t => s!"Unrecognised backstore link {str p} -> {str t}"
  | .noLink p => s!"LUN {str p} has no backstore link"
  | .noRbdTree p => s!"No RBD device tree at {str p}"
  | .rbdMatch o id => s!"lio: {str o} matches RBD device {str id}"
  | .noRbdMatch o => s!"lio: no RBD device for {str o}"
  | .countersRead i t l r w o => s!"lio: {str i}/{str t}/{str l} read={r} write={w} ops={o}"
  | .targetWalked i => s!"lio: walking iscsi {str i}"
  | .lunWalked k => s!"lio: iqn={str k.iqn}, tpgt={str k.tpgt}, lun={str k.lun}, type={str k.link.store}, object={str k.link.object}, typeNumber={str k.link.number}"
  | .kindSkipped s => s!"lio: skipping unsupported backstore type {str s}"
  | .resolved k i => s!"lio: {str k.iqn}/{str k.tpgt}/{str k.lun} resolved to {str (Identity.describe i)}"
  | .emitting k r w o ls => s!"lio: {str k.name} read={sixPlaces r} write={sixPlaces w} ops={sixPlaces o} labels={str (Text.quotedAll ls)}"
  | .subsystemAbsent a => s!"lio: kernel configfs may be not available: {a.message}"
  | .cycleAborted n t => s!"lio: collection cycle aborted after {n} LUNs: {t.message}"
  | .collecting => "lio: Update lioCollector"
  | .collected n => s!"lio: collected {n} LUNs"
  | .badAddress m => m
  | .serving h p r => s!"Serving LIO metrics on {str h}:{p} (configfs={str r.configfs}, sysfs={str r.sysfs})"
  | .interrupted => "Interrupted, exiting"

end Event

/-- The events of at least the severity `threshold`. -/
def Event.shown (threshold : Nat) (es : List Event) : List Event := es.filter (threshold ≤ ·.level.number)

end LunMetrics
