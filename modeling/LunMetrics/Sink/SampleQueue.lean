import LunMetrics.Sink.Basic

/- A sink that hands samples to a queue, which a consumer drains. A limit of zero or less is none. On a full
   queue no time is waited; a negative time to wait is refused before the queue is looked at, but only where
   there is a limit. -/
namespace LunMetrics

/-- Samples that wait, the next one first. -/
structure SampleQueue where
  limit : Int
  waiting : List Sample
  deriving DecidableEq, Repr

namespace SampleQueue

def isFull (q : SampleQueue) : Bool := 0 < q.limit && q.limit ≤ q.waiting.length

def put (timeout : Int) (s : Sample) (q : SampleQueue) : SampleQueue × Option SinkFault :=
  if 0 < q.limit && timeout < 0 then (q, some .negativeTimeout)
  else if q.isFull then (q, some .queueFull)
  else ({ q with waiting := q.waiting ++ [s] }, none)

/-- The first samples, at most `max` of them if that is given, and what then waits. -/
def drain (max : Option Nat) (q : SampleQueue) : List Sample × SampleQueue :=
  let n := max.getD q.waiting.length
  (q.waiting.take n, { q with waiting := q.waiting.drop n })

/-- The station at which samples are queued while the file systems stand still. -/
def station (fs : Sysfs) (timeout : Int) : Station SampleQueue := ⟨fun _ => fs, put timeout⟩

end SampleQueue
end LunMetrics
