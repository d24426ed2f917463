import LunMetrics.FileTree.Walk

/- Changes of a file tree. A change names its place by a path; the directories on the way to it are made
   where they are missing. -/
namespace LunMetrics

/-- One change. -/
inductive Edit
  | directory (path : Text)
  | file (path : Text) (bytes : List UInt8)
  | link (path target : Text)
  | lock (path : Text)
  | remove (path : Text)
  | rename (path newPath : Text)
  deriving DecidableEq, Repr

namespace FileTree

/-- The tree with `e` at a location, in place of what is there or after everything else. -/
def put (t : FileTree) (l : Location) (e : Entry) : FileTree :=
  if l = [] then t
  else if (t.at? l).isSome then { t with entries := t.entries.map fun x => if x.1 = l then (l, e) else x }
  else { t with entries := t.entries ++ [(l, e)] }

def remove (t : FileTree) (l : Location) : FileTree :=
  { t with entries := t.entries.filter fun x => !l.isPrefixOf x.1 }

def move (t : FileTree) (l l' : Location) : FileTree :=
  if l = l' then t
  else
    let (moved, stay) := t.entries.partition fun x => l.isPrefixOf x.1
    let room := remove { t with entries := stay } l'
    { t with entries := room.entries ++ moved.map fun x => (l' ++ x.1.drop l.length, x.2) }

/-- The directory that a component leads to from a location, made if nothing is there. -/
def enter (t : FileTree) (l : Location) (c : Text) : FileTree × Location :=
  if c = ['.'] then (t, l)
  else if c = ['.', '.'] then (t, l.dropLast)
  else
    match t.at? (l ++ [c]) with
    | none => (t.put (l ++ [c]) .directory, l ++ [c])
    | some (.link _) =>
      match t.walk true maxLinks (.inside l) [c] with
      | .ok (.inside l') => (t, l')
      | _ => (t, l ++ [c])
    | some _ => (t, l ++ [c])

def enterAll (t : FileTree) (l : Location) : List Text → FileTree × Location
  | [] => (t, l)
  | c :: cs => let (t', l') := t.enter l c; enterAll t' l' cs

/-- The location that a path names, in a tree that has the directories on the way to it. -/
def reach (t : FileTree) (path : Text) : FileTree × Location :=
  let parts := (path.splitOn '/').filter (· ≠ [])
  let (t', dir) := t.enterAll [] parts.dropLast
  (t', dir ++ parts.getLast?.toList)

/-- The location of the file that is written through a location: what a link there names, be it there or
    not, after at most the given number of links. -/
def written (t : FileTree) : Nat → Location → Location
  | 0, l => l
  | links + 1, l =>
    match t.at? l with
    | some (.link target) =>
      let parts := steps target
      match t.walk true maxLinks (t.start (.inside l.dropLast) target) parts.dropLast with
      | .ok (.inside dir) => written t links (dir ++ parts.getLast?.toList)
      | _ => l
    | _ => l

def edit (t : FileTree) : Edit → FileTree
  | .directory path =>
    (t.enterAll [] ((path.splitOn '/').filter (· ≠ []))).1
  | .file path bytes =>
    let (t', l) := t.reach path
    t'.put (t'.written maxLinks l) (.file bytes)
  | .link path target =>
    let (t', l) := t.reach path
    t'.put l (.link target)
  | .lock path =>
    let (t', l) := t.reach path
    let l := t'.written maxLinks l
    match t'.at? l with
    | some .directory => t'.put l (.locked true)
    | some (.file _) => t'.put l (.locked false)
    | _ => t'
  | .remove path =>
    let (t', l) := t.reach path
    t'.remove l
  | .rename path newPath =>
    let (t₁, l) := t.reach path
    let (t₂, l') := t₁.reach newPath
    t₂.move l l'

def editAll (t : FileTree) (es : List Edit) : FileTree := es.foldl edit t

end FileTree
end LunMetrics
