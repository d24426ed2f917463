import LunMetrics.Text.Utf8

/- File trees. A tree holds directories, files and symbolic links below a current directory. Where that directory
   is not the root itself (`atRoot`), nothing stands above it but the root, an empty directory (`Place.outside`).
   The order of `entries` is the order in which a directory enumerates its names (`names`); nothing else looks at
   it as long as no location occurs twice. -/
namespace LunMetrics

/-- What a location holds. What is locked cannot be read: a file, or a directory of names, which does not tell them
    but still leads to what they name. -/
inductive Entry
  | directory
  | file (bytes : List UInt8)
  | link (target : Text)
  | locked (names : Bool)
  deriving DecidableEq, Repr

namespace Entry

def isDirectory : Entry → Bool
  | .directory => true
  | .locked names => names
  | _ => false

def isReadable : Entry → Bool
  | .locked _ => false
  | _ => true

end Entry

/-- A location below the current directory: the names on the way to it. -/
abbrev Location := List Text

/-- Everything below the current directory, which is a directory itself and not listed. -/
structure FileTree where
  entries : List (Location × Entry)
  atRoot : Bool
  deriving Repr

/-- Somewhere a path can lead. -/
inductive Place
  | inside (location : Location)
  | outside
  deriving DecidableEq, Repr

namespace Place

/-- The place of a name in a directory; the root outside of a tree has no names. -/
def child? : Place → Text → Option Place
  | .inside l, name => some (.inside (l ++ [name]))
  | .outside, _ => none

end Place

namespace FileTree

def empty : FileTree := ⟨[], false⟩

def at? (t : FileTree) (l : Location) : Option Entry :=
  if l = [] then some .directory else (t.entries.find? fun e => e.1 = l).map (·.2)

def entry? (t : FileTree) : Place → Option Entry
  | .inside l => t.at? l
  | .outside => some .directory

def names (t : FileTree) : Place → List Text
  | .inside l => t.entries.filterMap fun e => if e.1.dropLast = l then e.1.getLast? else none
  | .outside => []

def root (t : FileTree) : Place := if t.atRoot then .inside [] else .outside

/-- The directory that holds a place. The root holds itself. -/
def parent (t : FileTree) : Place → Place
  | .inside [] => t.root
  | .inside l => .inside l.dropLast
  | .outside => .outside

end FileTree
end LunMetrics
