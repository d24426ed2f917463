import LunMetrics.Logged

/- Reading the export topology. The names in a directory are taken in code-point order; one that does not
   begin as the names of its level do is passed over. Only a missing export tree is a failure: a target
   that is gone has no groups, a group whose `enable` attribute does not read `1` has no LUNs, and a LUN
   directory without a link to a storage object is no LUN. -/
namespace LunMetrics.Topology

open Logged

/-! LUNs of a group. -/

/-- The storage object that the first suitable link among the names of a directory points at. -/
def findLink (fs : Sysfs) (dir : Text) : List Text → Logged (Option BackstoreLink)
  | [] => do
    note (.noLink dir)
    pure none
  | name :: names =>
    let path := Path.join dir name
    if fs.isLink path then
      match fs.readLink path with
      | .error _ => findLink fs dir names
      | .ok target =>
        match BackstoreLink.parse? target with
        | some link => pure (some link)
        | none => do
          note (.strangeLink path target)
          findLink fs dir names
    else findLink fs dir names

/-- The storage object behind the LUN directory `dir`. -/
def readLink (fs : Sysfs) (dir : Text) : Logged (Option BackstoreLink) :=
  match fs.list dir with
  | .error _ => pure none
  | .ok names => findLink fs dir names

/-- The LUNs among the names of the directory `root`. -/
def readEntries (fs : Sysfs) (root : Text) : List Text → Logged (List LunEntry)
  | [] => pure []
  | name :: names =>
    match Text.after? Layout.lunStart name with
    | none => readEntries fs root names
    | some lun => do
      let link ← readLink fs (Path.join root name)
      let rest ← readEntries fs root names
      pure (link.toList.map (LunEntry.mk lun) ++ rest)

def readLuns (fs : Sysfs) (path : Text) : Logged (List LunEntry) :=
  let root := Path.join path Layout.lunDir
  match fs.list root with
  | .error _ => pure []
  | .ok names => readEntries fs root names

/-! Groups of a target. -/

def isEnabled (fs : Sysfs) (path : Text) : Bool :=
  match fs.read (Path.join path Layout.enable) with
  | .error _ => false
  | .ok value => value = Layout.enabledValue

def readGroup (fs : Sysfs) (path tag : Text) : Logged PortGroup := do
  let enabled := isEnabled fs path
  note (.groupSeen path enabled)
  let luns ← if enabled then readLuns fs path else pure []
  pure ⟨tag, enabled, luns⟩

/-- The portal groups among the names of the directory `target`. -/
def readGroupsAmong (fs : Sysfs) (target : Text) : List Text → Logged (List PortGroup)
  | [] => pure []
  | name :: names =>
    match Text.after? Layout.groupStart name with
    | none => readGroupsAmong fs target names
    | some tag => do
      let group ← readGroup fs (Path.join target name) tag
      let rest ← readGroupsAmong fs target names
      pure (group :: rest)

def readGroups (fs : Sysfs) (path : Text) : Logged (List PortGroup) :=
  match fs.list path with
  | .error _ => do
    note (.targetGone path)
    pure []
  | .ok names => readGroupsAmong fs path names

/-! Targets. -/

/-- The targets among the names of the export tree. -/
def readTargetsAmong (fs : Sysfs) (roots : Roots) : List Text → Logged (List Target)
  | [] => pure []
  | iqn :: names =>
    if Layout.iqnStart.isPrefixOf iqn then do
      let groups ← readGroups fs (Path.join roots.iscsi iqn)
      let rest ← readTargetsAmong fs roots names
      pure (⟨iqn, groups⟩ :: rest)
    else readTargetsAmong fs roots names

def read (fs : Sysfs) (roots : Roots) : Logged (Except Absent (List Target)) :=
  match fs.list roots.iscsi with
  | .error f => pure (.error ⟨f⟩)
  | .ok names => do
    let targets ← readTargetsAmong fs roots names
    pure (.ok targets)

end LunMetrics.Topology
