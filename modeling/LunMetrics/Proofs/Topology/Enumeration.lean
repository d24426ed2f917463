import LunMetrics.Topology.Discovery

/- What each level of the discovery finds, without the notes that it makes. A loop over names is a
   `filterMap` or `map` over the names that the directory shows, and the search for a link is a `findSome?`;
   everything that is proved about the topology starts from these equations. -/
namespace LunMetrics.Topology

/-! One name. -/

/-- The names that a directory shows; one that cannot be listed shows none. -/
def shown (fs : Sysfs) (path : Text) : List Text :=
  match fs.list path with
  | .error _ => []
  | .ok names => names

/-- The storage object that a name in a LUN directory points at, if it is a link with a suitable target. -/
def pointed? (fs : Sysfs) (dir name : Text) : Option BackstoreLink :=
  if fs.isLink (Path.join dir name) then
    match fs.readLink (Path.join dir name) with
    | .error _ => none
    | .ok target => BackstoreLink.parse? target
  else none

/-- The storage object behind the LUN directory `dir`. -/
def backing? (fs : Sysfs) (dir : Text) : Option BackstoreLink := (shown fs dir).findSome? (pointed? fs dir)

/-- The LUN that a name in the directory `root` stands for. -/
def lunOf? (fs : Sysfs) (root name : Text) : Option LunEntry :=
  (Text.after? Layout.lunStart name).bind fun lun =>
    (backing? fs (Path.join root name)).map (LunEntry.mk lun)

/-- The group that a name in a target's directory stands for. -/
def groupOf? (fs : Sysfs) (target name : Text) : Option PortGroup :=
  (Text.after? Layout.groupStart name).map fun tag => (readGroup fs (Path.join target name) tag).value

/-! Loops over names. -/

theorem value_findLink (fs : Sysfs) (dir : Text) :
    ∀ names : List Text, (findLink fs dir names).value = names.findSome? (pointed? fs dir)
  | [] => rfl
  | name :: names => by
    have ih := value_findLink fs dir names
    rw [List.findSome?_cons]
    simp only [findLink, pointed?]
    -- what is no link, and a link to nothing suitable, is passed over
    split
    · cases fs.readLink (Path.join dir name) with
      | error f => exact ih
      | ok target =>
        cases h : BackstoreLink.parse? target with
        | none => simp [h, ih]
        | some link => simp [h]
    · exact ih

theorem value_readLink (fs : Sysfs) (dir : Text) : (readLink fs dir).value = backing? fs dir := by
  unfold readLink backing? shown
  cases fs.list dir with
  | error f => rfl
  | ok names => exact value_findLink fs dir names

theorem value_readEntries (fs : Sysfs) (root : Text) :
    ∀ names : List Text, (readEntries fs root names).value = names.filterMap (lunOf? fs root)
  | [] => rfl
  | name :: names => by
    have ih := value_readEntries fs root names
    rw [List.filterMap_cons]
    simp only [readEntries, lunOf?]
    cases Text.after? Layout.lunStart name with
    | none => exact ih
    | some lun =>
      simp only [Logged.value_bind, Logged.value_pure, value_readLink, ih, Option.bind_some]
      cases backing? fs (Path.join root name) with
      | none => rfl
      | some link => rfl

theorem value_readLuns (fs : Sysfs) (path : Text) :
    (readLuns fs path).value =
      (shown fs (Path.join path Layout.lunDir)).filterMap (lunOf? fs (Path.join path Layout.lunDir)) := by
  unfold readLuns shown
  simp only
  cases fs.list (Path.join path Layout.lunDir) with
  | error f => rfl
  | ok names => exact value_readEntries fs _ names

theorem value_readGroup (fs : Sysfs) (path tag : Text) :
    (readGroup fs path tag).value =
      ⟨tag, isEnabled fs path, if isEnabled fs path then (readLuns fs path).value else []⟩ := by
  simp only [readGroup, Logged.value_bind]
  cases isEnabled fs path <;> rfl

theorem value_readGroupsAmong (fs : Sysfs) (target : Text) :
    ∀ names : List Text, (readGroupsAmong fs target names).value = names.filterMap (groupOf? fs target)
  | [] => rfl
  | name :: names => by
    have ih := value_readGroupsAmong fs target names
    rw [List.filterMap_cons]
    simp only [readGroupsAmong, groupOf?]
    cases Text.after? Layout.groupStart name with
    | none => exact ih
    | some tag => simp only [Logged.value_bind, Logged.value_pure, ih, Option.map_some]

theorem value_readGroups (fs : Sysfs) (path : Text) :
    (readGroups fs path).value = (shown fs path).filterMap (groupOf? fs path) := by
  unfold readGroups shown
  cases fs.list path with
  | error f => rfl
  | ok names => exact value_readGroupsAmong fs path names

theorem value_readTargetsAmong (fs : Sysfs) (roots : Roots) :
    ∀ names : List Text, (readTargetsAmong fs roots names).value =
      (names.filter Layout.iqnStart.isPrefixOf).map fun iqn =>
        ⟨iqn, (readGroups fs (Path.join roots.iscsi iqn)).value⟩
  | [] => rfl
  | iqn :: names => by
    have ih := value_readTargetsAmong fs roots names
    rw [List.filter_cons]
    simp only [readTargetsAmong]
    split
    · simp only [Logged.value_bind, Logged.value_pure, ih, List.map_cons]
    · exact ih

/-- Only a missing export tree keeps the topology from being read. -/
theorem value_read (fs : Sysfs) (roots : Roots) :
    (read fs roots).value =
      match fs.list roots.iscsi with
      | .error f => .error ⟨f⟩
      | .ok names => .ok (readTargetsAmong fs roots names).value := by
  unfold read
  cases fs.list roots.iscsi <;> rfl

end LunMetrics.Topology
