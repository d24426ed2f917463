import LunMetrics.FileTree.Edit
import LunMetrics.Sink.Basic

/- A sink that keeps every sample. It may refuse from a given number of samples on, and the file tree may be
   edited while it is at work: edits are tied to the number of samples kept and happen at the beginning of
   the sends made at that number. -/
namespace LunMetrics

/-- The samples kept, oldest first, and the number from which samples are refused, with what is said then. -/
structure Recorder where
  kept : List Sample
  refusal : Option (Nat × String)
  deriving DecidableEq, Repr

namespace Recorder

def fresh : Recorder := ⟨[], none⟩

/-- A sample is kept unless the number of kept ones is the one to refuse at. -/
def send (s : Sample) (r : Recorder) : Recorder × Option SinkFault :=
  match r.refusal with
  | some (n, message) =>
    if n ≤ r.kept.length then (r, some (.refused message)) else ({ r with kept := r.kept ++ [s] }, none)
  | none => ({ r with kept := r.kept ++ [s] }, none)

/-- The station at which samples are kept while the file systems stand still. -/
def station (fs : Sysfs) : Station Recorder := ⟨fun _ => fs, send⟩

end Recorder

/-- A recorder beside a file tree, with edits that wait for a number of kept samples. -/
structure Rehearsal where
  tree : FileTree
  recorder : Recorder
  edits : List (Nat × List Edit)

/-- Edits that are due happen first, then the sample goes to the recorder. -/
def Rehearsal.send (s : Sample) (r : Rehearsal) : Rehearsal × Option SinkFault :=
  let due := r.edits.filter (·.1 = r.recorder.kept.length)
  let (recorder, fault) := r.recorder.send s
  ({ r with tree := due.foldl (fun t e => t.editAll e.2) r.tree, recorder }, fault)

/-- The station at which a recorder works. -/
def Rehearsal.station : Station Rehearsal := ⟨fun r => r.tree.sysfs, Rehearsal.send⟩

end LunMetrics
