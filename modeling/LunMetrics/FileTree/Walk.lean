import LunMetrics.FileTree.Basic

/- Where a path leads, by the rules of POSIX. A path is walked component by component (`stretch`) up to the
   next symbolic link that has to be followed; then the walk goes on in the link's target (`walk`), for at
   most 40 links. A path that ends in a slash asks for a directory, as one that ends in `/.` does (`steps`). -/
namespace LunMetrics

inductive Errno
  | noEntry
  | notDirectory
  | isDirectory
  | invalidArgument
  | nameTooLong
  | tooManyLinks
  deriving DecidableEq, Repr

namespace FileTree

def maxName : Nat := 255

/-- The number of bytes from which on a path is too long. -/
def pathLimit : Nat := 4096

def maxLinks : Nat := 40

/-- The components of a path, with a last `.` where it ends in a slash. -/
def steps (path : Text) : List Text :=
  let parts := (path.splitOn '/').filter (· ≠ [])
  if parts ≠ [] && path.getLast? = some '/' then parts ++ [['.']] else parts

/-- Where a path starts, seen from a directory. -/
def start (t : FileTree) (dir : Place) (path : Text) : Place := if path.head? = some '/' then t.root else dir

/-- How far a walk gets without following a link: to its end, to a failure, or to a link in a directory
    with components still to come. -/
inductive Stretch
  | arrived (place : Place)
  | failed (errno : Errno)
  | link (dir : Place) (target : Text) (rest : List Text)
  deriving DecidableEq, Repr

/-- The components walked from a place; the last one is followed too if `follow` says so. -/
def stretch (t : FileTree) (follow : Bool) (p : Place) : List Text → Stretch
  | [] => .arrived p
  | c :: cs =>
    if !(t.entry? p).any Entry.isDirectory then .failed .notDirectory
    else if c = ['.'] then stretch t follow p cs
    else if c = ['.', '.'] then stretch t follow (t.parent p) cs
    else if maxName < Utf8.size c then .failed .nameTooLong
    else
      match p.child? c with
      | none => .failed .noEntry
      | some q =>
        match t.entry? q with
        | none => .failed .noEntry
        | some (.link target) => if follow || cs ≠ [] then .link p target cs else .arrived q
        | some _ => stretch t follow q cs

/-- The components walked from a place, following at most the given number of links. -/
def walk (t : FileTree) (follow : Bool) : Nat → Place → List Text → Except Errno Place
  | 0, p, cs =>
    match stretch t follow p cs with
    | .arrived q => .ok q
    | .failed e => .error e
    | .link .. => .error .tooManyLinks
  | links + 1, p, cs =>
    match stretch t follow p cs with
    | .arrived q => .ok q
    | .failed e => .error e
    | .link dir target rest => walk t follow links (t.start dir target) (steps target ++ rest)

/-- Where a path leads from the current directory. -/
def locate (t : FileTree) (follow : Bool) (path : Text) : Except Errno Place :=
  if path = [] || path.contains '\x00' then .error .noEntry
  else if pathLimit ≤ Utf8.size path then .error .nameTooLong
  else walk t follow maxLinks (t.start (.inside []) path) (steps path)

end FileTree
end LunMetrics
