import LunMetrics.FileTree.Walk
import LunMetrics.Text.Blank
import LunMetrics.Text.Digits
import LunMetrics.Text.Quoted

/- What the two pseudo file systems answer. This file

   1. names the ways a read fails (`SysfsFault`, `LinkFault`, `CounterFault`) and writes each as a message;
   2. fixes the six questions that everything else asks (`Sysfs`);
   3. reads an attribute that holds an unsigned integer (`Sysfs.natural`);
   4. answers the questions from a file tree (`FileTree.sysfs`). -/
namespace LunMetrics

/-! Failures. -/

/-- The number and the text of a system error. -/
def Errno.describe : Errno → Nat × String
  | .noEntry => (2, "No such file or directory")
  | .notDirectory => (20, "Not a directory")
  | .isDirectory => (21, "Is a directory")
  | .invalidArgument => (22, "Invalid argument")
  | .nameTooLong => (36, "File name too long")
  | .tooManyLinks => (40, "Too many levels of symbolic links")

def Errno.message (e : Errno) (path : Text) : String :=
  s!"[Errno {e.describe.1}] {e.describe.2}: {str (Text.quoted path)}"

def Utf8.Reason.message : Utf8.Reason → String
  | .invalidStart => "invalid start byte"
  | .invalidContinuation => "invalid continuation byte"
  | .unexpectedEnd => "unexpected end of data"

/-- A single bad byte is shown, several are told by their first and last place. -/
def Utf8.Fault.message (f : Utf8.Fault) : String :=
  match f.bytes with
  | [b] => s!"'utf-8' codec can't decode byte 0x{str (Text.hex 2 b.toNat)} in position {f.position}: {f.reason.message}"
  | bs => s!"'utf-8' codec can't decode bytes in position {f.position}-{f.position + bs.length - 1}: {f.reason.message}"

/-- An entry that does not exist or cannot be read. -/
inductive SysfsFault
  | unreadable (path : Text)
  | unlistable (path : Text)
  | reading (path : Text) (errno : Errno)
  | undecodable (path : Text) (fault : Utf8.Fault)
  | listing (path : Text) (errno : Errno)
  | link (path : Text) (errno : Errno)
  deriving DecidableEq, Repr

def SysfsFault.message : SysfsFault → String
  | .unreadable p => s!"Cannot read from {str p}"
  | .unlistable p => s!"Cannot list {str p}"
  | .reading p e => s!"Error reading from {str p}: {e.message p}"
  | .undecodable p f => s!"Error reading from {str p}: {f.message}"
  | .listing p e => s!"Error listing {str p}: {e.message p}"
  | .link p e => s!"Error reading link {str p}: {e.message p}"

inductive LinkFault
  | sysfs (fault : SysfsFault)
  | embeddedNull
  deriving DecidableEq, Repr

def LinkFault.message : LinkFault → String
  | .sysfs f => f.message
  | .embeddedNull => "embedded null byte"

/-- The most characters of a quoted text that a complaint about a numeral shows. -/
def maxNumeralShown : Nat := 200

def Text.NumeralFault.message : Text.NumeralFault → String
  | .notDecimal t => s!"invalid literal for int() with base 10: {str ((Text.quoted t).take maxNumeralShown)}"
  | .tooLong n => s!"Exceeds the limit ({Text.maxDigits} digits) for integer string conversion: value has {n} digits; use sys.set_int_max_str_digits() to increase the limit"

/-- Why an attribute gives no unsigned integer. -/
inductive CounterFault
  | sysfs (fault : SysfsFault)
  | notUnsigned (path raw : Text)
  | numeral (fault : Text.NumeralFault)
  deriving DecidableEq, Repr

def CounterFault.message : CounterFault → String
  | .sysfs f => f.message
  | .notUnsigned p raw => s!"Expected unsigned integer in {str p}, got {str (Text.quoted raw)}"
  | .numeral f => f.message

/-! Questions. -/

/-- The answers to the six questions about a path: whether it is there to be read, the stripped text of the file, the
    target of the link, whether it is a link, whether it leads to a directory, and the names in the
    directory that are not hidden, in code-point order. -/
structure Sysfs where
  isThere : Text → Bool
  read : Text → Except SysfsFault Text
  readLink : Text → Except LinkFault Text
  isLink : Text → Bool
  isDirectory : Text → Bool
  list : Text → Except SysfsFault (List Text)

/-- The unsigned integer in an attribute. -/
def Sysfs.natural (fs : Sysfs) (path : Text) : Except CounterFault Nat :=
  match fs.read path with
  | .error f => .error (.sysfs f)
  | .ok raw =>
    if Text.areDigits raw then (Text.natural raw).mapError .numeral
    else .error (.notUnsigned path raw)

/-! Answers of a file tree. -/

namespace FileTree

def target? (t : FileTree) (path : Text) : Option Entry := (t.locate true path).toOption.bind t.entry?

/-- The text of a file: decoded, with line ends of one kind, without blanks at its ends. -/
def content (bytes : List UInt8) : Except Utf8.Fault Text :=
  (Utf8.decode bytes).map fun t => Text.strip (Text.unifyLineEnds t)

def isHidden (name : Text) : Bool := name.head? = some '.'

def read (t : FileTree) (path : Text) : Except SysfsFault Text :=
  match t.target? path with
  | none | some (.locked _) => .error (.unreadable path)
  | some (.file bytes) => (content bytes).mapError (.undecodable path)
  | some _ => .error (.reading path .isDirectory)

def readLink (t : FileTree) (path : Text) : Except LinkFault Text :=
  if path.contains '\x00' then .error .embeddedNull
  else
    match t.locate false path with
    | .error e => .error (.sysfs (.link path e))
    | .ok p =>
      match t.entry? p with
      | some (.link target) => .ok target
      | _ => .error (.sysfs (.link path .invalidArgument))

def isLink (t : FileTree) (path : Text) : Bool :=
  match (t.locate false path).toOption.bind t.entry? with
  | some (.link _) => true
  | _ => false

def list (t : FileTree) (path : Text) : Except SysfsFault (List Text) :=
  match t.locate true path with
  | .error _ => .error (.unlistable path)
  | .ok p =>
    match t.entry? p with
    | some .directory => .ok (Text.sorted ((t.names p).filter (!isHidden ·)))
    | none | some (.locked _) => .error (.unlistable path)
    | some _ => .error (.listing path .notDirectory)

/-- What a file tree answers. -/
def sysfs (t : FileTree) : Sysfs where
  isThere path := (t.target? path).any Entry.isReadable
  read := t.read
  readLink := t.readLink
  isLink := t.isLink
  isDirectory path := (t.target? path).any Entry.isDirectory
  list := t.list

end FileTree
end LunMetrics
