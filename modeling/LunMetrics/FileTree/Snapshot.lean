import LunMetrics.FileTree.Edit

/- A file tree as lines of text. A line has fields between tabs: `d` and a path for a directory, `f`, a path
   and a text for a file, `l`, a path and a target for a link, and `u` and a path for what may not be read of what
   was there so far. A file of several lines is written with one line for each, since every further line for a path
   adds a line to its text. The tree begins at the root, so absolute and relative paths are one. -/
namespace LunMetrics.FileTree

/-- The text of a file so far, with the line end that separates it from a further line. -/
def started (t : FileTree) (path : Text) : List UInt8 :=
  match (t.locate true path).toOption.bind t.entry? with
  | some (.file bytes) => bytes ++ [10]
  | _ => []

def addLine? (t : FileTree) (line : Text) : Option FileTree :=
  match line.splitOn '\t' with
  | [['d'], path] => some (t.edit (.directory path))
  | [['f'], path, text] => some (t.edit (.file path (t.started path ++ Utf8.encode text)))
  | [['l'], path, target] => some (t.edit (.link path target))
  | [['u'], path] => some (t.edit (.lock path))
  | _ => none

/-- The tree of all lines that are well formed. -/
def ofLines (lines : List Text) : FileTree := lines.foldl (fun t l => (t.addLine? l).getD t) ⟨[], true⟩

end LunMetrics.FileTree
