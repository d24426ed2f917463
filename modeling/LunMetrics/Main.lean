import LunMetrics.CommandLine.Session
import LunMetrics.Exposition
import LunMetrics.FileTree.Snapshot
import LunMetrics.Scrape

/- The program. It checks its arguments as a server would, reads a snapshot of the two file systems from the
   standard input (`FileTree.ofLines`), and writes what a scrape would be answered to the standard output and
   the log to the standard error output. -/

namespace LunMetrics.Program

partial def linesOf (stream : IO.FS.Stream) (done : List Text) : IO (List Text) := do
  let line ← stream.getLine
  if line.isEmpty then return done.reverse
  linesOf stream ((line.toList.reverse.dropWhile (· = '\n')).reverse :: done)

def writeLog (events : List Event) : IO Unit :=
  for e in events do IO.eprintln s!"{e.level.name} - {e.message}"

def answerScrape (threshold : Nat) (roots : Roots) : IO UInt32 := do
  let tree := FileTree.ofLines (← linesOf (← IO.getStdin) [])
  let outcome := Scrape.collect tree.sysfs ⟨roots, Metric.standardNamespace⟩
  writeLog (Event.shown threshold outcome.events)
  match outcome.result with
  | .ok families =>
    IO.print (str (Exposition.text families))
    return 0
  | .error f =>
    IO.eprintln f.message
    return 1

/-- What a run with these arguments does, up to its exit code. -/
def start (arguments : List Text) : IO UInt32 := do
  match CommandLine.parse arguments with
  | .error e =>
    IO.print e.output
    IO.eprint e.complaint
    return UInt32.ofNat e.exitCode
  | .ok settings =>
    match CommandLine.serve settings 0 with
    | .error f =>
      IO.eprintln f.message
      return 1
    | .ok session =>
      writeLog session.events
      match session.threshold, session.roots with
      | some threshold, some roots => answerScrape threshold roots
      | _, _ => return UInt32.ofNat session.exitCode

end LunMetrics.Program

def main (arguments : List String) : IO UInt32 := LunMetrics.Program.start (arguments.map String.toList)
