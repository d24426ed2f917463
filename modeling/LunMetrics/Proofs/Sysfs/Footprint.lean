import LunMetrics.Backstore.Resolve
import LunMetrics.Statistics.Reading
import LunMetrics.Proofs.Backstore.Devices
import LunMetrics.Proofs.Topology.Exports

/- What is asked about. For each of the three readers an inductive predicate lists the paths that it asks the file
   systems about (`Topology.Asks`, `Backstore.Asks`, `Statistics.Asks`); which ones they are depends on the answers
   before. Two file systems that agree there (`Sysfs.AgreeOn`) cannot be told apart by the reader: it comes to the
   same value and notes the same events (`Topology.read_congr`, `Backstore.resolve_congr`,
   `Statistics.read_congr`). -/
namespace LunMetrics

/-! Agreement. -/

namespace Sysfs

/-- Whether two file systems give the same answers about a path. -/
structure AgreeAt (fs fs' : Sysfs) (path : Text) : Prop where
  isThere : fs.isThere path = fs'.isThere path
  read : fs.read path = fs'.read path
  readLink : fs.readLink path = fs'.readLink path
  isLink : fs.isLink path = fs'.isLink path
  isDirectory : fs.isDirectory path = fs'.isDirectory path
  list : fs.list path = fs'.list path

/-- Whether they do so about every path that is asked about. -/
def AgreeOn (fs fs' : Sysfs) (asked : Text → Prop) : Prop := ∀ path, asked path → fs.AgreeAt fs' path

variable {fs fs' : Sysfs}

theorem natural_congr {path : Text} (h : fs.AgreeAt fs' path) : fs.natural path = fs'.natural path := by
  unfold natural
  rw [h.read]

end Sysfs

/-! The topology. -/

namespace Topology

section
variable (fs : Sysfs) (r : Roots)

/-- Whether the export tree shows a target. -/
structure ShowsTarget (iqn : Text) : Prop where
  listed : iqn ∈ shown fs r.iscsi
  named : Layout.iqnStart.isPrefixOf iqn = true

/-- Whether a target shows a group. -/
structure ShowsGroup (iqn tag : Text) : Prop where
  target : ShowsTarget fs r iqn
  listed : Layout.groupStart ++ tag ∈ shown fs (r.target iqn)

/-- Whether an enabled group shows a LUN. -/
structure ShowsLun (iqn tag lun : Text) : Prop where
  group : ShowsGroup fs r iqn tag
  enabled : isEnabled fs (r.group iqn tag) = true
  listed : Layout.lunStart ++ lun ∈ shown fs (r.luns iqn tag)

/-- What is asked about to read the topology: the export tree, every target, the attribute of every group, and
    below an enabled group its LUNs with their entries. -/
inductive Asks : Text → Prop
  | root : Asks r.iscsi
  | target {iqn : Text} : ShowsTarget fs r iqn → Asks (r.target iqn)
  | enable {iqn tag : Text} : ShowsGroup fs r iqn tag → Asks (Path.join (r.group iqn tag) Layout.enable)
  | luns {iqn tag : Text} : ShowsGroup fs r iqn tag → isEnabled fs (r.group iqn tag) = true → Asks (r.luns iqn tag)
  | lun {iqn tag lun : Text} : ShowsLun fs r iqn tag lun → Asks (r.lun iqn tag lun)
  | entry {iqn tag lun name : Text} : ShowsLun fs r iqn tag lun → name ∈ shown fs (r.lun iqn tag lun) →
      Asks (Path.join (r.lun iqn tag lun) name)

end

section
variable {fs fs' : Sysfs}

theorem shown_eq {path : Text} {names : List Text} (h : fs.list path = .ok names) : shown fs path = names := by
  unfold shown
  rw [h]

theorem shown_congr {path : Text} (h : fs.AgreeAt fs' path) : shown fs path = shown fs' path := by
  unfold shown
  rw [h.list]

/-! Each loop asks for each name what its body asks. -/

theorem findLink_congr (dir : Text) : ∀ names : List Text,
    (∀ name ∈ names, fs.AgreeAt fs' (Path.join dir name)) → findLink fs dir names = findLink fs' dir names
  | [], _ => rfl
  | name :: names, h => by
    have here := h name List.mem_cons_self
    have ih := findLink_congr dir names fun n hn => h n (List.mem_cons_of_mem name hn)
    simp only [findLink, here.isLink, here.readLink, ih]

theorem readLink_congr {dir : Text} (h : fs.AgreeAt fs' dir)
    (entries : ∀ name ∈ shown fs dir, fs.AgreeAt fs' (Path.join dir name)) : readLink fs dir = readLink fs' dir := by
  unfold readLink
  rw [← h.list]
  cases hl : fs.list dir with
  | error f => rfl
  | ok names =>
    rw [shown_eq hl] at entries
    exact findLink_congr dir names entries

theorem readEntries_congr (root : Text) : ∀ names : List Text,
    (∀ lun, Layout.lunStart ++ lun ∈ names →
      readLink fs (Path.join root (Layout.lunStart ++ lun)) = readLink fs' (Path.join root (Layout.lunStart ++ lun))) →
    readEntries fs root names = readEntries fs' root names
  | [], _ => rfl
  | name :: names, h => by
    have ih := readEntries_congr root names fun lun hl => h lun (List.mem_cons_of_mem name hl)
    simp only [readEntries, ih]
    cases ha : Text.after? Layout.lunStart name with
    | none => rfl
    | some lun =>
      have hn := (Text.after?_eq_some_iff _ _ _).1 ha
      have here := h lun (by rw [← hn]; exact List.mem_cons_self)
      rw [← hn] at here
      simp only [here]

theorem readLuns_congr {path : Text} (h : fs.AgreeAt fs' (Path.join path Layout.lunDir))
    (luns : ∀ lun, Layout.lunStart ++ lun ∈ shown fs (Path.join path Layout.lunDir) →
      readLink fs (Path.join (Path.join path Layout.lunDir) (Layout.lunStart ++ lun)) =
        readLink fs' (Path.join (Path.join path Layout.lunDir) (Layout.lunStart ++ lun))) :
    readLuns fs path = readLuns fs' path := by
  unfold readLuns
  simp only
  rw [← h.list]
  cases hl : fs.list (Path.join path Layout.lunDir) with
  | error f => rfl
  | ok names =>
    rw [shown_eq hl] at luns
    exact readEntries_congr _ names luns

theorem isEnabled_congr {path : Text} (h : fs.AgreeAt fs' (Path.join path Layout.enable)) :
    isEnabled fs path = isEnabled fs' path := by
  unfold isEnabled
  rw [h.read]

theorem readGroup_congr {path : Text} (h : fs.AgreeAt fs' (Path.join path Layout.enable))
    (luns : isEnabled fs path = true → readLuns fs path = readLuns fs' path) (tag : Text) :
    readGroup fs path tag = readGroup fs' path tag := by
  unfold readGroup
  simp only [← isEnabled_congr h]
  cases he : isEnabled fs path with
  | false => rfl
  | true => simp only [luns he]

theorem readGroupsAmong_congr (target : Text) : ∀ names : List Text,
    (∀ tag, Layout.groupStart ++ tag ∈ names →
      readGroup fs (Path.join target (Layout.groupStart ++ tag)) tag =
        readGroup fs' (Path.join target (Layout.groupStart ++ tag)) tag) →
    readGroupsAmong fs target names = readGroupsAmong fs' target names
  | [], _ => rfl
  | name :: names, h => by
    have ih := readGroupsAmong_congr target names fun tag ht => h tag (List.mem_cons_of_mem name ht)
    simp only [readGroupsAmong, ih]
    cases ha : Text.after? Layout.groupStart name with
    | none => rfl
    | some tag =>
      have hn := (Text.after?_eq_some_iff _ _ _).1 ha
      have here := h tag (by rw [← hn]; exact List.mem_cons_self)
      rw [← hn] at here
      simp only [here]

theorem readGroups_congr {path : Text} (h : fs.AgreeAt fs' path)
    (groups : ∀ tag, Layout.groupStart ++ tag ∈ shown fs path →
      readGroup fs (Path.join path (Layout.groupStart ++ tag)) tag =
        readGroup fs' (Path.join path (Layout.groupStart ++ tag)) tag) :
    readGroups fs path = readGroups fs' path := by
  unfold readGroups
  rw [← h.list]
  cases hl : fs.list path with
  | error f => rfl
  | ok names =>
    rw [shown_eq hl] at groups
    exact readGroupsAmong_congr path names groups

theorem readTargetsAmong_congr (r : Roots) : ∀ names : List Text,
    (∀ iqn ∈ names, Layout.iqnStart.isPrefixOf iqn = true →
      readGroups fs (r.target iqn) = readGroups fs' (r.target iqn)) →
    readTargetsAmong fs r names = readTargetsAmong fs' r names
  | [], _ => rfl
  | iqn :: names, h => by
    have ih := readTargetsAmong_congr r names fun n hn => h n (List.mem_cons_of_mem iqn hn)
    simp only [readTargetsAmong, ih]
    split
    · next hb =>
      have here := h iqn List.mem_cons_self hb
      unfold Roots.target at here
      simp only [here]
    · rfl

theorem read_congr {r : Roots} (h : fs.AgreeOn fs' (Asks fs r)) : read fs r = read fs' r := by
  have luns : ∀ iqn tag, ShowsGroup fs r iqn tag → isEnabled fs (r.group iqn tag) = true →
      readLuns fs (r.group iqn tag) = readLuns fs' (r.group iqn tag) := by
    intro iqn tag hg he
    refine readLuns_congr (h _ (Asks.luns hg he)) fun lun hl => ?_
    have hlun : ShowsLun fs r iqn tag lun := ⟨hg, he, hl⟩
    exact readLink_congr (h _ (Asks.lun hlun)) fun name hn => h _ (Asks.entry hlun hn)
  have groups : ∀ iqn, ShowsTarget fs r iqn → readGroups fs (r.target iqn) = readGroups fs' (r.target iqn) := by
    intro iqn ht
    refine readGroups_congr (h _ (Asks.target ht)) fun tag hl => ?_
    have hg : ShowsGroup fs r iqn tag := ⟨ht, hl⟩
    exact readGroup_congr (h _ (Asks.enable hg)) (luns iqn tag hg) tag
  unfold read
  rw [← (h _ Asks.root).list]
  cases hl : fs.list r.iscsi with
  | error f => rfl
  | ok names =>
    have targets : readTargetsAmong fs r names = readTargetsAmong fs' r names := by
      refine readTargetsAmong_congr r names fun iqn hi hb => groups iqn ⟨?_, hb⟩
      rw [shown_eq hl]
      exact hi
    simp only [targets]

end

end Topology

/-! A storage object. -/

namespace Backstore

/-- What is asked about to resolve a link as one of a kind: the directory of the storage object or its attribute,
    and for an image every device. -/
inductive Asks (fs : Sysfs) (r : Roots) (link : BackstoreLink) : BackstoreKind → Text → Prop
  | udevPath {kind : BackstoreKind} : kind = .fileio ∨ kind = .iblock →
      Asks fs r link kind (Path.join (r.object kind.dirName link.number link.object) Layout.udevPath)
  | object {kind : BackstoreKind} : kind = .rbd ∨ kind = .rdmcp →
      Asks fs r link kind (r.object kind.dirName link.number link.object)
  | devices : Asks fs r link .rbd r.rbdDevices
  | pool {id : Text} : id ∈ Topology.shown fs r.rbdDevices → Text.areDigits id = true →
      Asks fs r link .rbd (Path.join (Path.join r.rbdDevices id) Layout.pool)
  | image {id : Text} : id ∈ Topology.shown fs r.rbdDevices → Text.areDigits id = true →
      Asks fs r link .rbd (Path.join (Path.join r.rbdDevices id) Layout.image)

section
variable {fs fs' : Sysfs} {r : Roots}

theorem readUdevPath_congr {dirName number object : Text}
    (h : fs.AgreeAt fs' (Path.join (r.object dirName number object) Layout.udevPath)) :
    readUdevPath fs r dirName number object = readUdevPath fs' r dirName number object := by
  unfold readUdevPath
  rw [h.read]

theorem readDevices_congr : ∀ ids : List Text,
    (∀ id ∈ ids, fs.AgreeAt fs' (Path.join (Path.join r.rbdDevices id) Layout.pool) ∧
      fs.AgreeAt fs' (Path.join (Path.join r.rbdDevices id) Layout.image)) →
    readDevices fs r ids = readDevices fs' r ids
  | [], _ => rfl
  | id :: ids, h => by
    obtain ⟨hp, hi⟩ := h id List.mem_cons_self
    have ih := readDevices_congr ids fun i hm => h i (List.mem_cons_of_mem id hm)
    simp only [readDevices, hp.read, hi.read, ih]

theorem rbdDevices_congr (h : fs.AgreeAt fs' r.rbdDevices)
    (devices : ∀ id ∈ Topology.shown fs r.rbdDevices, Text.areDigits id = true →
      fs.AgreeAt fs' (Path.join (Path.join r.rbdDevices id) Layout.pool) ∧
        fs.AgreeAt fs' (Path.join (Path.join r.rbdDevices id) Layout.image)) :
    rbdDevices fs r = rbdDevices fs' r := by
  unfold rbdDevices
  rw [← h.list]
  cases hl : fs.list r.rbdDevices with
  | error f => rfl
  | ok names =>
    simp only
    cases hd : deviceIds names with
    | error f => rfl
    | ok ids =>
      rw [Topology.shown_eq hl] at devices
      have read : readDevices fs r ids = readDevices fs' r ids := by
        refine readDevices_congr ids fun id hid => ?_
        obtain ⟨hm, digits⟩ := (mem_deviceIds hd id).1 hid
        exact devices id hm digits
      simp only [read]

theorem objectExists_congr {dirName number object : Text} (h : fs.AgreeAt fs' (r.object dirName number object)) :
    objectExists fs r dirName number object = objectExists fs' r dirName number object := h.isDirectory

theorem matchRbd_congr {link : BackstoreLink}
    (h : fs.AgreeAt fs' (r.object BackstoreKind.rbd.dirName link.number link.object)) (devices : List RbdDevice) :
    matchRbd fs r link devices = matchRbd fs' r link devices := by
  unfold matchRbd
  cases hf : devices.find? (·.object = link.object) with
  | none => rfl
  | some d =>
    -- a device that matches makes up the object's name
    have hd : d.object = link.object := by simpa using List.find?_some hf
    simp only [hd, objectExists_congr h]

/-- What a LUN is resolved to depends on nothing but what is asked about to resolve it. -/
theorem resolve_congr {link : BackstoreLink} {kind : BackstoreKind} (h : fs.AgreeOn fs' (Asks fs r link kind)) :
    resolve fs r link kind = resolve fs' r link kind := by
  cases kind with
  | fileio => simp only [resolve, readUdevPath_congr (h _ (Asks.udevPath (Or.inl rfl)))]
  | iblock => simp only [resolve, readUdevPath_congr (h _ (Asks.udevPath (Or.inr rfl)))]
  | rbd =>
    have devices : rbdDevices fs r = rbdDevices fs' r :=
      rbdDevices_congr (h _ Asks.devices) fun id hm digits =>
        ⟨h _ (Asks.pool hm digits), h _ (Asks.image hm digits)⟩
    simp only [resolve, devices, matchRbd_congr (h _ (Asks.object (Or.inl rfl)))]
  | rdmcp => simp only [resolve, objectExists_congr (h _ (Asks.object (Or.inr rfl)))]

end

end Backstore

/-! The counters of a LUN. -/

namespace Statistics

/-- What is asked about to read the counters of a LUN. -/
inductive Asks (r : Roots) (iqn tpgt lun : Text) : Text → Prop
  | counter {name : Text} : name ∈ [Layout.readUnits, Layout.writeUnits, Layout.commands] →
      Asks r iqn tpgt lun (Path.join (r.statistics iqn tpgt lun) name)

theorem read_congr {fs fs' : Sysfs} {r : Roots} {iqn tpgt lun : Text} (h : fs.AgreeOn fs' (Asks r iqn tpgt lun)) :
    read fs r iqn tpgt lun = read fs' r iqn tpgt lun := by
  have counter : ∀ name ∈ [Layout.readUnits, Layout.writeUnits, Layout.commands],
      fs.natural (Path.join (r.statistics iqn tpgt lun) name) =
        fs'.natural (Path.join (r.statistics iqn tpgt lun) name) :=
    fun name hn => Sysfs.natural_congr (h _ (Asks.counter hn))
  unfold read readIn
  rw [counter Layout.readUnits (by simp), counter Layout.writeUnits (by simp), counter Layout.commands (by simp)]

end Statistics
end LunMetrics
