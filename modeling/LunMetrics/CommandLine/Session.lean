import LunMetrics.CommandLine.Arguments
import LunMetrics.CommandLine.ListenAddress
import LunMetrics.Event

/- A run of the program: what is set up, what is served and where, and what is noted, from the arguments and
   the number of times that the waiting loop wakes up before it is interrupted. A bad address is found
   before anything is registered or started. -/
namespace LunMetrics.CommandLine

def logFormat : String := "%(asctime)s - %(name)s - %(levelname)s - %(message)s"

/-- An option without a value, met where its value is needed. -/
inductive MissingValue
  | level
  | address
  | root
  deriving DecidableEq, Repr

def MissingValue.message : MissingValue → String
  | .level => "'list' object has no attribute 'upper'"
  | .address => "'list' object has no attribute 'rpartition'"
  | .root => "expected str, bytes or os.PathLike object, not list"

/-- What a run did: the least severity logged, the mount points of the registered exporter, the address of
    the server, the number of waits, the exit code, and the events of that severity. -/
structure Session where
  threshold : Option Nat
  roots : Option Roots
  server : Option ListenAddress
  waits : Nat
  exitCode : Nat
  events : List Event
  deriving DecidableEq, Repr

/-- A value that has to be there. -/
def need {α : Type} (fault : MissingValue) : Option α → Except MissingValue α
  | some a => .ok a
  | none => .error fault

/-- A run with settings. The log is set to a severity, since the command line lets no other name through. -/
def serve (s : Settings) (wakeups : Nat) : Except MissingValue Session := do
  let threshold := Level.threshold (← need .level s.log)
  match ListenAddress.parse (← need .address s.listen) with
  | .error f => return ⟨some threshold, none, none, 0, 2, Event.shown threshold [.badAddress f.message]⟩
  | .ok address =>
    let configfs ← need .root s.configfs
    let sysfs ← need .root s.sysfs
    let roots : Roots := ⟨sysfs, configfs⟩
    let events := Event.shown threshold [.serving address.host address.port roots, .interrupted]
    return ⟨some threshold, some roots, some address, wakeups + 1, 0, events⟩

def run (arguments : List Text) (wakeups : Nat) : Except MissingValue Session :=
  match parse arguments with
  | .error e => .ok ⟨none, none, none, 0, e.exitCode, []⟩
  | .ok s => serve s wakeups

end LunMetrics.CommandLine
