import LunMetrics.Proofs.Backstore.Contract
import LunMetrics.Proofs.Backstore.Devices

/- Which device an RBD image is. Devices are told by the device tree without any order: `HasDevice` says which there
   are, `ShowsDevice` which of them can be read, with pool and image, and `FailsDevice` which cannot. What a link is
   resolved to follows from these alone:

   1. the devices are gone through in the order of their numbers, each exactly once (`exists_device_order`);
   2. reading all of them fails with the least that cannot be read, or gives those that can be (`readDevices_cases`);
   3. so a link is resolved to the least device that makes up the object's name, unless any device cannot be read
      (`resolve_joins_least_device`). -/
namespace LunMetrics

namespace Backstore

/-- What reading a device comes to: its pool is read before its image. -/
def readDevice (fs : Sysfs) (r : Roots) (id : Text) : Except SysfsFault RbdDevice := do
  let pool ← fs.read (Path.joinAll r.sysfs ["devices/rbd".toList, id, "pool".toList])
  let image ← fs.read (Path.joinAll r.sysfs ["devices/rbd".toList, id, "name".toList])
  return ⟨id, pool, image⟩

end Backstore

/-! Devices of a tree. -/

namespace FileTree

section
variable (t : FileTree) (r : Roots)

/-- Whether there is a device of the given name: an entry of the device tree that is made of digits. A device tree
    that cannot be listed has no devices. -/
structure HasDevice (id : Text) : Prop where
  held : t.Holds (Path.join r.sysfs "devices/rbd".toList) id
  digits : Text.areDigits id = true

/-- Whether there is a device and it can be read. -/
structure ShowsDevice (d : RbdDevice) : Prop where
  device : t.HasDevice r d.id
  shows : Backstore.readDevice t.sysfs r d.id = .ok d

/-- Whether there is a device and one of its attributes cannot be read. -/
structure FailsDevice (id : Text) (f : SysfsFault) : Prop where
  device : t.HasDevice r id
  fails : Backstore.readDevice t.sysfs r id = .error f

end

theorem hasDevice_iff {t : FileTree} {r : Roots} {names : List Text} (h : t.list r.rbdDevices = .ok names)
    (id : Text) : t.HasDevice r id ↔ id ∈ names ∧ Text.areDigits id = true := by
  rw [mem_list_iff h]
  refine ⟨?_, ?_⟩
  · intro device
    exact ⟨⟨device.held, not_hidden_of_digits device.digits⟩, device.digits⟩
  · rintro ⟨⟨held, _⟩, digits⟩
    exact ⟨held, digits⟩

end FileTree

namespace Backstore

/-! Reading the devices. -/

section
variable {fs : Sysfs} {r : Roots}

theorem id_of_readDevice {id : Text} {d : RbdDevice} (h : readDevice fs r id = .ok d) : d.id = id := by
  unfold readDevice at h
  simp only [Except.bind_eq_ok_iff, Except.pure_eq_ok_iff] at h
  obtain ⟨_, _, _, _, rfl⟩ := h
  rfl

theorem readDevices_cons (id : Text) (ids : List Text) : readDevices fs r (id :: ids) = (do
    let d ← (readDevice fs r id).mapError (.rbdDevice id)
    let ds ← readDevices fs r ids
    return d :: ds) := by
  have hpool : Path.join (Path.join r.rbdDevices id) Layout.pool =
    Path.joinAll r.sysfs ["devices/rbd".toList, id, "pool".toList] := rfl
  have himage : Path.join (Path.join r.rbdDevices id) Layout.image =
    Path.joinAll r.sysfs ["devices/rbd".toList, id, "name".toList] := rfl
  simp only [readDevices, readDevice, hpool, himage]
  cases fs.read (Path.joinAll r.sysfs ["devices/rbd".toList, id, "pool".toList]) with
  | error f => rfl
  | ok pool => cases fs.read (Path.joinAll r.sysfs ["devices/rbd".toList, id, "name".toList]) <;> rfl

theorem readDevices_fails {id : Text} {f : SysfsFault} (fails : readDevice fs r id = .error f) :
    ∀ ids : List Text, ids.find? (fun id => !(readDevice fs r id).isOk) = some id →
      readDevices fs r ids = .error (.rbdDevice id f)
  | [], h => by cases h
  | id' :: ids, h => by
    rw [List.find?_cons] at h
    rw [readDevices_cons]
    cases hd : readDevice fs r id' with
    | error g =>
      rw [hd] at h
      cases h
      cases fails.symm.trans hd
      rfl
    | ok d =>
      rw [hd] at h
      rw [readDevices_fails fails ids h]
      rfl

theorem readDevices_shows : ∀ ids : List Text, ids.find? (fun id => !(readDevice fs r id).isOk) = none →
    ∃ ds, readDevices fs r ids = .ok ds ∧ ds.map (·.id) = ids ∧ ∀ d ∈ ds, readDevice fs r d.id = .ok d
  | [], _ => ⟨[], rfl, rfl, by simp⟩
  | id :: ids, h => by
    rw [List.find?_cons] at h
    cases hd : readDevice fs r id with
    | error f =>
      rw [hd] at h
      cases h
    | ok d =>
      rw [hd] at h
      obtain ⟨ds, read, order, shows⟩ := readDevices_shows ids h
      have same := id_of_readDevice hd
      refine ⟨d :: ds, ?_, by rw [List.map_cons, order, same], ?_⟩
      · rw [readDevices_cons, hd, read]
        rfl
      · intro d' hd'
        rcases List.mem_cons.1 hd' with rfl | later
        · rw [same, hd]
        · exact shows d' later

/-- Of devices in the order of their numbers the least that cannot be read is told, or all are read in this order. -/
theorem readDevices_cases {ids : List Text} (ordered : ids.Pairwise Text.ByNumber) :
    (∃ id f, Least Text.ByNumber (fun id => id ∈ ids ∧ ∃ f, readDevice fs r id = .error f) id ∧
      readDevice fs r id = .error f ∧ readDevices fs r ids = .error (.rbdDevice id f)) ∨
    (∀ id ∈ ids, ∀ f, readDevice fs r id ≠ .error f) ∧
      ∃ ds, readDevices fs r ids = .ok ds ∧ ds.Pairwise (fun a b => Text.ByNumber a.id b.id) ∧
        ∀ d, d ∈ ds ↔ d.id ∈ ids ∧ readDevice fs r d.id = .ok d := by
  have failed : ∀ id, (!(readDevice fs r id).isOk) = true ↔ ∃ f, readDevice fs r id = .error f := by
    intro id
    cases readDevice fs r id <;> simp [Except.isOk, Except.toBool]
  cases hf : ids.find? (fun id => !(readDevice fs r id).isOk) with
  | some id =>
    have least := (find?_eq_some_iff_least (fun _ _ h => h.asymm) _ id ordered).1 hf
    simp only [failed] at least
    obtain ⟨f, fails⟩ := least.has.2
    exact Or.inl ⟨id, f, least, fails, readDevices_fails fails ids hf⟩
  | none =>
    obtain ⟨ds, read, order, shows⟩ := readDevices_shows ids hf
    refine Or.inr ⟨?_, ds, read, ?_, ?_⟩
    · intro id hid f fails
      have ok := List.find?_eq_none.1 hf id hid
      rw [failed] at ok
      exact ok ⟨f, fails⟩
    · rw [← order, List.pairwise_map] at ordered
      exact ordered
    · intro d
      rw [← order]
      refine ⟨fun hd => ⟨List.mem_map_of_mem hd, shows d hd⟩, ?_⟩
      rintro ⟨hid, hd⟩
      obtain ⟨d', hd', same⟩ := List.mem_map.1 hid
      -- a device is read in one way
      have here := shows d' hd'
      rw [same] at here
      cases hd.symm.trans here
      exact hd'

theorem readDevices_eq {fs' : Sysfs} : ∀ ids : List Text,
    (∀ id ∈ ids, readDevice fs r id = readDevice fs' r id) → readDevices fs r ids = readDevices fs' r ids
  | [], _ => rfl
  | id :: ids, h => by
    rw [readDevices_cons, readDevices_cons, h id List.mem_cons_self,
      readDevices_eq ids fun id' hid => h id' (List.mem_cons_of_mem id hid)]

end

/-! The device of an image. -/

section
variable {t : FileTree} {r : Roots}

theorem rbdDevices_byNumber (legal : t.Legal) {ds : List RbdDevice}
    (h : (rbdDevices t.sysfs r).value = .ok ds) : (ds.map (·.id)).Pairwise Text.ByNumber := by
  rw [value_rbdDevices, FileTree.sysfs_list] at h
  cases hl : t.list r.rbdDevices with
  | error f =>
    rw [hl] at h
    cases h
    exact List.Pairwise.nil
  | ok names =>
    rw [hl] at h
    simp only at h
    cases hids : deviceIds names with
    | error f =>
      rw [hids] at h
      cases h
    | ok ids =>
      rw [hids] at h
      have ordered := deviceIds_byNumber hids (FileTree.list_before legal hl)
      rcases @readDevices_cases t.sysfs r ids ordered with ⟨_, _, _, _, read⟩ | ⟨_, ds', read, order, _⟩
      · simp only [read] at h
        cases h
      · simp only [read] at h
        cases h
        exact List.pairwise_map.2 order

/-- The devices have one order, and they are read in it. -/
theorem exists_device_order (legal : t.Legal) (decimal : t.DecimalIds r) :
    ∃ ids, ids.Pairwise Text.ByNumber ∧ (∀ id, id ∈ ids ↔ t.HasDevice r id) ∧
      (rbdDevices t.sysfs r).value = (readDevices t.sysfs r ids).mapError .lookup := by
  rw [value_rbdDevices, FileTree.sysfs_list]
  cases hl : t.list r.rbdDevices with
  | error f =>
    refine ⟨[], List.Pairwise.nil, ?_, rfl⟩
    intro id
    refine ⟨by simp, ?_⟩
    intro device
    obtain ⟨names, listed⟩ := device.held.listed
    cases hl.symm.trans listed
  | ok names =>
    obtain ⟨ids, hids⟩ := deviceIds_ok legal decimal hl
    refine ⟨ids, deviceIds_byNumber hids (FileTree.list_before legal hl), ?_, by simp only [hids]⟩
    intro id
    rw [mem_deviceIds hids, FileTree.hasDevice_iff hl]

theorem rbdDevices_cases (legal : t.Legal) (decimal : t.DecimalIds r) :
    (∃ id f, t.FailsDevice r id f ∧ Least Text.ByNumber (fun id => ∃ f, t.FailsDevice r id f) id ∧
      (rbdDevices t.sysfs r).value = .error (.lookup (.rbdDevice id f))) ∨
    (∀ id f, ¬ t.FailsDevice r id f) ∧
      ∃ ds, (rbdDevices t.sysfs r).value = .ok ds ∧ ds.Pairwise (fun a b => Text.ByNumber a.id b.id) ∧
        ∀ d, d ∈ ds ↔ t.ShowsDevice r d := by
  obtain ⟨ids, ordered, devices, value⟩ := exists_device_order legal decimal
  rw [value]
  rcases readDevices_cases ordered with ⟨id, f, least, fails, read⟩ | ⟨readable, ds, read, order, shown⟩
  · refine Or.inl ⟨id, f, ⟨(devices id).1 least.has.1, fails⟩, ?_, by rw [read]; rfl⟩
    constructor
    case has => exact ⟨f, (devices id).1 least.has.1, fails⟩
    case least =>
      rintro id' ⟨f', failing⟩
      exact least.least id' ⟨(devices id').2 failing.device, f', failing.fails⟩
  · refine Or.inr ⟨?_, ds, by rw [read]; rfl, order, ?_⟩
    · intro id f failing
      exact readable id ((devices id).2 failing.device) f failing.fails
    · intro d
      rw [shown, devices]
      exact ⟨fun h => ⟨h.1, h.2⟩, fun h => ⟨h.device, h.shows⟩⟩

/-- Trees with the same devices go through them in the same order. -/
theorem rbdDevices_eq {u : FileTree} (legal : t.Legal) (decimal : t.DecimalIds r) (legal' : u.Legal)
    (same : ∀ id, u.HasDevice r id ↔ t.HasDevice r id)
    (read : ∀ id, t.HasDevice r id → readDevice u.sysfs r id = readDevice t.sysfs r id) :
    (rbdDevices u.sysfs r).value = (rbdDevices t.sysfs r).value := by
  have decimal' : u.DecimalIds r := by
    intro id held digits
    have device := (same id).1 ⟨held, digits⟩
    exact decimal id device.held digits
  obtain ⟨ids, ordered, devices, value⟩ := exists_device_order legal decimal
  obtain ⟨ids', ordered', devices', value'⟩ := exists_device_order legal' decimal'
  have perm : ids'.Perm ids := by
    rw [List.perm_ext_iff_of_nodup (ordered'.imp Text.ByNumber.ne) (ordered.imp Text.ByNumber.ne)]
    intro id
    rw [devices', devices, same]
  have order : ids' = ids :=
    List.Perm.eq_of_pairwise (fun _ _ _ _ h h' => absurd h' h.asymm) ordered' ordered perm
  rw [value', value, order, readDevices_eq ids fun id hid => read id ((devices id).1 hid)]

theorem objectExists_rbd (fs : Sysfs) (r : Roots) (number object : Text) :
    objectExists fs r BackstoreKind.rbd.dirName number object =
      fs.isDirectory (Path.joinAll r.configfs ["target/core".toList, "rbd_".toList ++ number, object]) := rfl

theorem directoryName_rbd (link : BackstoreLink) : directoryName .rbd link = "rbd_".toList ++ link.number := rfl

/-- What a link to an image is resolved to, in a tree whose devices are named by decimal digits:

    * if the pool or the image of any device cannot be read, the least such device is at fault;
    * else, if no device makes up the object's name, there is no counterpart;
    * else the least device that makes it up is the one, and its storage object has to be there.

    Entries of the device tree that are no devices play no part, nor does it matter how the device tree fails to be
    listed: a tree with the same devices and the same storage object gives the same. -/
theorem resolve_joins_least_device (legal : t.Legal) (decimal : t.DecimalIds r) (link : BackstoreLink) :
    ((∃ id f, t.FailsDevice r id f) → ∃ id f, t.FailsDevice r id f ∧
      Least Text.ByNumber (fun id => ∃ f, t.FailsDevice r id f) id ∧
      (resolve t.sysfs r link .rbd).value = .error (.lookup (.rbdDevice id f))) ∧
    ((∀ id f, ¬ t.FailsDevice r id f) →
      ((∀ d, t.ShowsDevice r d → d.pool ++ '-' :: d.image ≠ link.object) →
        (resolve t.sysfs r link .rbd).value = .ok none) ∧
      ((∃ d, t.ShowsDevice r d ∧ d.pool ++ '-' :: d.image = link.object) → ∃ d,
        Least (fun a b => Text.ByNumber a.id b.id)
          (fun d => t.ShowsDevice r d ∧ d.pool ++ '-' :: d.image = link.object) d ∧
        (resolve t.sysfs r link .rbd).value =
          if t.sysfs.isDirectory
              (Path.joinAll r.configfs ["target/core".toList, "rbd_".toList ++ link.number, link.object]) then
            .ok (some (.rbd ("rbd_".toList ++ link.number) d.pool d.image))
          else .error (.lookup (.rbdObject d.id link.number link.object)))) ∧
    ∀ u : FileTree, u.Legal → (∀ id, u.HasDevice r id ↔ t.HasDevice r id) →
      (∀ id, t.HasDevice r id → readDevice u.sysfs r id = readDevice t.sysfs r id) →
      u.sysfs.isDirectory
          (Path.joinAll r.configfs ["target/core".toList, "rbd_".toList ++ link.number, link.object]) =
        t.sysfs.isDirectory
          (Path.joinAll r.configfs ["target/core".toList, "rbd_".toList ++ link.number, link.object]) →
      (resolve u.sysfs r link .rbd).value = (resolve t.sysfs r link .rbd).value := by
  refine ⟨?_, ?_, ?_⟩
  · rintro ⟨id, f, failing⟩
    rcases rbdDevices_cases legal decimal with ⟨id, f, fails, least, value⟩ | ⟨none_fails, _⟩
    · refine ⟨id, f, fails, least, ?_⟩
      rw [value_resolve_rbd, value]
    · exact absurd failing (none_fails id f)
  · intro none_fails
    rcases rbdDevices_cases legal decimal with ⟨id, f, fails, _⟩ | ⟨_, ds, value, ordered, shown⟩
    · exact absurd fails (none_fails id f)
    have found := fun d => find?_eq_some_iff_least (fun _ _ h => Text.ByNumber.asymm h)
      (fun d : RbdDevice => d.object = link.object) d ordered
    simp only [shown, decide_eq_true_eq] at found
    refine ⟨?_, ?_⟩
    · intro unmatched
      have none_found : ds.find? (fun d => d.object = link.object) = none := by
        rw [List.find?_eq_none]
        intro d hd
        rw [decide_eq_true_eq]
        exact unmatched d ((shown d).1 hd)
      simp only [value_resolve_rbd, value, value_matchRbd, none_found]
    · rintro ⟨d, shows, matching⟩
      have some_found : (ds.find? fun d => d.object = link.object).isSome = true := by
        rw [List.find?_isSome]
        exact ⟨d, (shown d).2 shows, decide_eq_true matching⟩
      obtain ⟨first, hf⟩ := Option.isSome_iff_exists.1 some_found
      have least := (found first).1 hf
      refine ⟨first, least, ?_⟩
      simp only [value_resolve_rbd, value, value_matchRbd, hf, least.has.2, objectExists_rbd, directoryName_rbd]
  · intro u legal' same read object
    have devices := rbdDevices_eq legal decimal legal' same read
    rw [value_resolve_rbd, value_resolve_rbd, devices]
    cases (rbdDevices t.sysfs r).value with
    | error f => rfl
    | ok ds =>
      simp only [value_matchRbd]
      cases hf : ds.find? (fun d => d.object = link.object) with
      | none => rfl
      | some d =>
        have matching : d.object = link.object := by simpa using List.find?_some hf
        simp only [objectExists_rbd, matching, object]

end

/-! Twin devices. -/

/-- The small tree with two devices of number zero, whose pools and images make up one name, and with something beside
    them that is no device. -/
def twins : FileTree :=
  let devices := ["s".toList, "devices".toList, "rbd".toList]
  let core := ["c".toList, "target".toList, "core".toList, "rbd_0".toList]
  let entries : List (Location × Entry) :=
    [(devices ++ ["00".toList], .directory),
     (devices ++ ["00".toList, Layout.pool], .file [0x61, 0x2d, 0x62]),
     (devices ++ ["00".toList, Layout.image], .file [0x63]),
     (devices ++ ["0".toList, Layout.pool], .file [0x61]),
     (devices ++ ["0".toList, Layout.image], .file [0x62, 0x2d, 0x63]),
     (devices ++ ["x".toList], .directory), (core, .directory), (core ++ ["a-b-c".toList], .directory)]
  { FileTree.specimen with entries := FileTree.specimen.entries ++ entries }

theorem twins_legal : twins.Legal := by decide +kernel

def devicePlace : Place := .inside ["s".toList, "devices".toList, "rbd".toList]

theorem twins_decimal : twins.DecimalIds Roots.specimen :=
  (FileTree.asciiIds_of_names (p := devicePlace) rfl rfl).decimal

theorem twins_none_fails (id : Text) (f : SysfsFault) : ¬ twins.FailsDevice Roots.specimen id f := by
  intro failing
  have readable : ∀ id ∈ twins.names devicePlace, Text.areDigits id = true →
      (readDevice twins.sysfs Roots.specimen id).isOk = true := by decide +kernel
  have held := (FileTree.holds_iff_of_locate rfl rfl id).1 failing.device.held
  have ok := readable id held failing.device.digits
  rw [failing.fails] at ok
  cases ok

def twinsLink : BackstoreLink := ⟨"rbd".toList, "0".toList, "a-b-c".toList⟩

/-- The storage object is the one of the first of the two devices. Without their pools it is not found out. -/
theorem twins_joins_least_device :
    (∃ d, Least (fun a b => Text.ByNumber a.id b.id)
        (fun d => twins.ShowsDevice Roots.specimen d ∧ d.pool ++ '-' :: d.image = twinsLink.object) d ∧
      (resolve twins.sysfs Roots.specimen twinsLink .rbd).value =
        .ok (some (.rbd "rbd_0".toList d.pool d.image)) ∧ d.pool = "a".toList ∧ d.image = "b-c".toList) ∧
    ∃ id f, FileTree.specimen.FailsDevice Roots.specimen id f ∧
      (resolve FileTree.specimen.sysfs Roots.specimen twinsLink .rbd).value = .error (.lookup (.rbdDevice id f)) := by
  refine ⟨?_, ?_⟩
  · have held : twins.Holds Roots.specimen.rbdDevices "0".toList :=
      (FileTree.holds_iff_of_locate (p := devicePlace) rfl rfl _).2 (by decide)
    have shows : twins.ShowsDevice Roots.specimen ⟨"0".toList, "a".toList, "b-c".toList⟩ := ⟨⟨held, rfl⟩, rfl⟩
    obtain ⟨d, least, value⟩ :=
      ((resolve_joins_least_device twins_legal twins_decimal twinsLink).2.1 twins_none_fails).2 ⟨_, shows, rfl⟩
    rw [if_pos (by decide +kernel)] at value
    have known : (resolve twins.sysfs Roots.specimen twinsLink .rbd).value =
      .ok (some (.rbd "rbd_0".toList "a".toList "b-c".toList)) := rfl
    have same := known.symm.trans value
    simp only [Except.ok.injEq, Option.some.injEq, Identity.rbd.injEq] at same
    exact ⟨d, least, value, same.2.1.symm, same.2.2.symm⟩
  · have held : FileTree.specimen.Holds Roots.specimen.rbdDevices "0".toList :=
      (FileTree.holds_iff_of_locate (p := devicePlace) rfl rfl _).2 (by decide)
    have decimal : FileTree.specimen.DecimalIds Roots.specimen :=
      (FileTree.asciiIds_of_names (p := devicePlace) rfl rfl).decimal
    obtain ⟨id, f, fails, _, value⟩ :=
      (resolve_joins_least_device FileTree.specimen_legal decimal twinsLink).1 ⟨"0".toList, _, ⟨held, rfl⟩, rfl⟩
    exact ⟨id, f, fails, value⟩

end Backstore
end LunMetrics
