import LunMetrics.Logged

/- Resolving a LUN: finding out what identifies the storage object behind it. A file or block device is
   named by an attribute of its core directory; an RBD image is the first mapped device, by number, whose
   pool and image make up the object's name; a RAM disk is known by its core directory alone. -/
namespace LunMetrics.Backstore

open Logged

/-! Storage objects in the core tree. -/

def objectExists (fs : Sysfs) (roots : Roots) (dirName number object : Text) : Bool :=
  fs.isDirectory (roots.object dirName number object)

def readUdevPath (fs : Sysfs) (roots : Roots) (dirName number object : Text) : Except LookupFault Text :=
  (fs.read (Path.join (roots.object dirName number object) Layout.udevPath)).mapError
    (.udevPath dirName number object)

/-! Mapped RBD devices. -/

/-- Texts of digits with the numbers that they denote. -/
def numbered : List Text → Except Text.NumeralFault (List (Nat × Text))
  | [] => .ok []
  | id :: ids => do
    let n ← Text.natural id
    let rest ← numbered ids
    return (n, id) :: rest

/-- The names that are made of digits, by number; names of one number keep their order. -/
def deviceIds (names : List Text) : Except Text.NumeralFault (List Text) :=
  (numbered (names.filter Text.areDigits)).map fun ids =>
    (sortBy (fun a b => decide (a.1 ≤ b.1)) ids).map (·.2)

/-- The devices with the given ids, which all have to be readable. -/
def readDevices (fs : Sysfs) (roots : Roots) : List Text → Except LookupFault (List RbdDevice)
  | [] => .ok []
  | id :: ids => do
    let dir := Path.join roots.rbdDevices id
    let pool ← (fs.read (Path.join dir Layout.pool)).mapError (.rbdDevice id)
    let image ← (fs.read (Path.join dir Layout.image)).mapError (.rbdDevice id)
    let rest ← readDevices fs roots ids
    return ⟨id, pool, image⟩ :: rest

def rbdDevices (fs : Sysfs) (roots : Roots) : Logged (Except ResolveFault (List RbdDevice)) :=
  match fs.list roots.rbdDevices with
  | .error _ => do
    note (.noRbdTree roots.rbdDevices)
    pure (.ok [])
  | .ok names =>
    match deviceIds names with
    | .error f => pure (.error (.deviceNumber f))
    | .ok ids => pure ((readDevices fs roots ids).mapError .lookup)

/-! Resolving. -/

/-- The name of a core directory of a kind. -/
def directoryName (kind : BackstoreKind) (link : BackstoreLink) : Text := kind.dirName ++ '_' :: link.number

/-- The first device that makes up the object's name, whose storage object then has to be there. -/
def matchRbd (fs : Sysfs) (roots : Roots) (link : BackstoreLink) (devices : List RbdDevice) :
    Logged (Except ResolveFault (Option Identity)) :=
  match devices.find? (·.object = link.object) with
  | none => do
    note (.noRbdMatch link.object)
    pure (.ok none)
  | some d => do
    note (.rbdMatch link.object d.id)
    if objectExists fs roots BackstoreKind.rbd.dirName link.number d.object then
      pure (.ok (some (.rbd (directoryName .rbd link) d.pool d.image)))
    else pure (.error (.lookup (.rbdObject d.id link.number d.object)))

/-- What identifies the storage object that a link points at, taken as one of the given kind; nothing if the
    object has no counterpart. -/
def resolve (fs : Sysfs) (roots : Roots) (link : BackstoreLink) :
    BackstoreKind → Logged (Except ResolveFault (Option Identity))
  | .fileio =>
    pure ((readUdevPath fs roots BackstoreKind.fileio.dirName link.number link.object).mapError .lookup |>.map
      fun path => some (.fileio (directoryName .fileio link) link.object path))
  | .iblock =>
    pure ((readUdevPath fs roots BackstoreKind.iblock.dirName link.number link.object).mapError .lookup |>.map
      fun path => some (.iblock (directoryName .iblock link) link.object (Path.base path)))
  | .rbd => do
    let devices ← rbdDevices fs roots
    match devices with
    | .error f => pure (.error f)
    | .ok devices => matchRbd fs roots link devices
  | .rdmcp =>
    if objectExists fs roots BackstoreKind.rdmcp.dirName link.number link.object then
      pure (.ok (some (.rdmcp (directoryName .rdmcp link) link.object)))
    else pure (.ok none)

end LunMetrics.Backstore
