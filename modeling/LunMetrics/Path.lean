import LunMetrics.Text.Basic

/- Paths as texts, by the lexical rules of POSIX. This file

   1. joins a directory and a name (`join`), where an absolute name stands alone and a directory that ends in
      a slash gets no second one;
   2. takes the last component (`base`);
   3. normalises (`normalParts`): empty components and `.` vanish, `..` takes the component before it with
      it, and one that has nothing before it stays in a relative path and vanishes in an absolute one. -/
namespace LunMetrics.Path

def isAbsolute (p : Text) : Bool := p.head? = some '/'

/-- `name` inside `dir`. -/
def join (dir name : Text) : Text :=
  if isAbsolute name then name
  else if dir.isEmpty || dir.getLast? = some '/' then dir ++ name
  else dir ++ '/' :: name

/-- Several names, each inside what comes before it. -/
def joinAll (dir : Text) (names : List Text) : Text := names.foldl join dir

def base (p : Text) : Text :=
  match Text.cutLast? '/' p with
  | some (_, name) => name
  | none => p

/-- One more component at the end of normal components, these in reverse order. -/
def pushPart (absolute : Bool) (done : List Text) (part : Text) : List Text :=
  if part = [] || part = ['.'] then done
  else if part = ['.', '.'] then
    match done with
    | [] => if absolute then [] else [part]
    | last :: before => if last = ['.', '.'] then part :: done else before
  else part :: done

/-- The components of the normal form of a path. -/
def normalParts (p : Text) : List Text :=
  ((p.splitOn '/').foldl (pushPart (isAbsolute p)) []).reverse

end LunMetrics.Path
