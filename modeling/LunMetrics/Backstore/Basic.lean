import LunMetrics.Path

/- Backstores: the storage objects behind exported LUNs. This file

   1. lists the four kinds that are told apart, with the tokens that name them (`BackstoreKind.ofToken?`);
   2. reads the link from a LUN to its storage object (`BackstoreLink.parse?`);
   3. fixes what identifies a storage object of each kind, and the label values made of it (`Identity`). -/
namespace LunMetrics

/-! Kinds. -/

inductive BackstoreKind
  | fileio
  | iblock
  | rbd
  | rdmcp
  deriving DecidableEq, Repr

namespace BackstoreKind

def all : List BackstoreKind := [.fileio, .iblock, .rbd, .rdmcp]

/-- The name of a kind in messages and metric names. -/
def name : BackstoreKind → Text
  | .fileio => "fileio".toList
  | .iblock => "iblock".toList
  | .rbd => "rbd".toList
  | .rdmcp => "rdmcp".toList

/-- What the names of the core directories of a kind begin with. -/
def dirName : BackstoreKind → Text
  | .rdmcp => "rd_mcp".toList
  | k => k.name

/-- The kind that a type token stands for: its name, or the directory name of a RAM disk. -/
def ofToken? (token : Text) : Option BackstoreKind := all.find? fun k => token = k.name || token = k.dirName

/-- A LUN of a kind that is not told apart has nothing that resolves it. -/
structure Unsupported where
  deriving DecidableEq, Repr

def Unsupported.message (_ : Unsupported) : String := "<BackstoreType.SKIP: 'skip'>"

def supported : Option BackstoreKind → Except Unsupported BackstoreKind
  | some k => .ok k
  | none => .error {}

end BackstoreKind

/-! Links. -/

/-- The storage object that a link points at: type token, instance number and object name of
    `core/{store}_{number}/{object}`. -/
structure BackstoreLink where
  store : Text
  number : Text
  object : Text
  deriving DecidableEq, Repr

/-- The storage object named by the last two components of a link's target; the number is what follows the
    last underscore of the first of them. -/
def BackstoreLink.parse? (target : Text) : Option BackstoreLink :=
  match (Path.normalParts target).reverse with
  | object :: dir :: _ =>
    match Text.cutLast? '_' dir with
    | some (store, number) => if store = [] then none else some ⟨store, number, object⟩
    | none => none
  | _ => none

/-! Identities. -/

/-- What identifies a storage object. `name` is the name of its core directory, such as `fileio_3`. -/
inductive Identity
  | fileio (name object filename : Text)
  | iblock (name object device : Text)
  | rbd (name pool image : Text)
  | rdmcp (name object : Text)
  deriving DecidableEq, Repr

namespace Identity

def kind : Identity → BackstoreKind
  | .fileio .. => .fileio
  | .iblock .. => .iblock
  | .rbd .. => .rbd
  | .rdmcp .. => .rdmcp

def labelValues : Identity → List Text
  | .fileio name object filename => [name, object, filename]
  | .iblock name object device => [name, object, device]
  | .rbd name pool image => [name, pool, image]
  | .rdmcp name object => [name, object]

/-- The identity with the given fields, if their number is right. -/
def ofFields? : BackstoreKind → List Text → Option Identity
  | .fileio, [name, object, filename] => some (.fileio name object filename)
  | .iblock, [name, object, device] => some (.iblock name object device)
  | .rbd, [name, pool, image] => some (.rbd name pool image)
  | .rdmcp, [name, object] => some (.rdmcp name object)
  | _, _ => none

def describe : Option Identity → Text
  | some i => ['/'].intercalate i.labelValues
  | none => "<absent>".toList

end Identity

structure RbdDevice where
  id : Text
  pool : Text
  image : Text
  deriving DecidableEq, Repr

/-- The name of the storage object that is made of an RBD device. -/
def RbdDevice.object (d : RbdDevice) : Text := d.pool ++ '-' :: d.image

end LunMetrics
