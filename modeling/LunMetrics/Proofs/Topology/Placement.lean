import LunMetrics.Proofs.Cycle.Footprint
import LunMetrics.Proofs.Backstore.Link

/- Where the things stand that a cycle asks about. The export tree, the tree of storage objects and the device tree
   are open directories for all mount points (`open_iscsi`, `open_core`, `open_rbdDevices`), and everything else is
   a way down from one of them by plain names (`Roots.Plain`), if the listings show nothing but plain names
   (`Sysfs.Named`), as those of a legal file tree do:

   1. the directory of a LUN and that of its statistics are ways down from the export tree (`lun_eq`,
      `statistics_eq`), the one within the other (`statistics_eq_append`);
   2. the names on the way to a group or a LUN that is shown are plain (`ShowsGroup.plain`, `ShowsLun.plain`), and so
      are those that a yielded LUN links by (`plain_of_yielded`);
   3. to resolve a link, what is asked about are ways down from the tree of storage objects and from the device tree
      (`Asks.way`), and such a way leads to LUNs only if the device tree is among them (`within_lun_of_devices`). -/
namespace LunMetrics

/-! Names. -/

/-- Whether all listings show plain names only. -/
def Sysfs.Named (fs : Sysfs) : Prop := ∀ path, ∀ name ∈ Topology.shown fs path, Path.IsPlain name

theorem FileTree.IsName.plain {name : Text} (h : FileTree.IsName name) : Path.IsPlain name where
  notEmpty := h.notEmpty
  noSlash := h.noSlash
  notDot := h.notDot.1
  notDotDot := h.notDot.2

theorem FileTree.Legal.sysfs_named {t : FileTree} (legal : t.Legal) : t.sysfs.Named := by
  intro path name h
  exact (((Topology.mem_shown_iff t path name).1 h).1.isName legal).plain

theorem isPlain_of_areDigits {name : Text} (h : Text.areDigits name = true) : Path.IsPlain name := by
  have notEmpty : name ≠ [] := by
    intro e
    rw [e] at h
    cases h
  apply Path.IsPart.plain ⟨notEmpty, Text.not_mem_of_areDigits h (by decide)⟩
  intro hd
  exact Text.not_mem_of_areDigits h (by decide) (List.mem_of_head? hd)

theorem BackstoreKind.isPlain_directory (kind : BackstoreKind) {number : Text} (h : '/' ∉ number) :
    Path.IsPlain (kind.dirName ++ '_' :: number) := by
  have start : Path.IsPart kind.dirName ∧ kind.dirName.head? ≠ some '.' := by
    cases kind <;> decide
  apply Path.isPlain_append start.1 start.2
  rw [List.mem_cons, not_or]
  exact ⟨by decide, h⟩

/-! Directories. -/

namespace Roots

variable (r : Roots)

theorem iscsi_eq_join : r.iscsi = Path.join (Path.join r.configfs "target".toList) "iscsi".toList :=
  (Path.join_join r.configfs "target".toList "iscsi".toList (by decide) ⟨by decide, by decide⟩ (by decide)).symm

theorem rbdDevices_eq_join : r.rbdDevices = Path.join (Path.join r.sysfs "devices".toList) "rbd".toList :=
  (Path.join_join r.sysfs "devices".toList "rbd".toList (by decide) ⟨by decide, by decide⟩ (by decide)).symm

theorem open_iscsi : Path.Open r.iscsi := Path.open_join (by decide) ⟨by decide, by decide⟩

theorem open_core : Path.Open r.core := Path.open_join (by decide) ⟨by decide, by decide⟩

theorem open_rbdDevices : Path.Open r.rbdDevices := Path.open_join (by decide) ⟨by decide, by decide⟩

/-- The export tree and the tree of storage objects are apart from each other. -/
theorem iscsi_apart_core {path : Text} (h : Path.Within r.iscsi path) : ¬ Path.Within r.core path := by
  intro h'
  obtain ⟨front, hf⟩ := Path.exists_join_eq_append r.configfs
  have hi : front ++ "target/iscsi".toList <+: path := by
    rw [← hf _ (by decide)]
    exact h.begins
  have hc : front ++ "target/core".toList <+: path := by
    rw [← hf _ (by decide)]
    exact h'.begins
  rcases List.prefix_or_prefix_of_prefix hi hc with hp | hp
  · rw [List.prefix_append_right_inj] at hp
    exact absurd hp (by decide)
  · rw [List.prefix_append_right_inj] at hp
    exact absurd hp (by decide)

/-- Whether a path is a way down by plain names from one of the three trees. -/
def Plain (path : Text) : Prop :=
  ∃ top ∈ [r.iscsi, r.core, r.rbdDevices], ∃ names, (∀ n ∈ names, Path.IsPlain n) ∧ path = Path.joinAll top names

theorem lun_eq (iqn tag lun : Text) :
    r.lun iqn tag lun =
      Path.joinAll r.iscsi [iqn, Layout.groupStart ++ tag, Layout.lunDir, Layout.lunStart ++ lun] := rfl

theorem luns_eq (iqn tag : Text) :
    r.luns iqn tag = Path.joinAll r.iscsi [iqn, Layout.groupStart ++ tag, Layout.lunDir] := rfl

theorem statistics_eq (iqn tag lun : Text) :
    r.statistics iqn tag lun =
      Path.joinAll r.iscsi [iqn, Layout.groupStart ++ tag, Layout.lunDir, Layout.lunStart ++ lun,
        "statistics".toList, "scsi_tgt_port".toList] :=
  (Path.join_join (r.lun iqn tag lun) "statistics".toList "scsi_tgt_port".toList (by decide) ⟨by decide, by decide⟩
    (by decide)).symm

theorem within_device {id name : Text} (digits : Text.areDigits id = true) (h : Path.IsPart name) :
    Path.Within r.rbdDevices (Path.join (Path.join r.rbdDevices id) name) :=
  (Path.within_joined r.open_rbdDevices (isPlain_of_areDigits digits).toIsPart).trans
    (Path.within_joined (Path.Open.join _ (isPlain_of_areDigits digits).toIsPart) h)

section
variable (iqn tag : Text) {lun : Text} (hl : '/' ∉ lun)
include hl

theorem open_lun : Path.Open (r.lun iqn tag lun) := Path.Open.join _ (Path.isPart_append (by decide) hl)

/-- The statistics of a LUN are below its directory, by a path of two names. -/
theorem statistics_eq_append :
    r.statistics iqn tag lun = r.lun iqn tag lun ++ '/' :: Layout.portStatistics := by
  have ho := r.open_lun iqn tag hl
  have joined : r.statistics iqn tag lun = Path.join (r.lun iqn tag lun) Layout.portStatistics := by
    rw [lun_eq, ← Path.joinAll_concat]
    rfl
  rw [joined, Path.join, if_neg (by decide), if_neg]
  simp [ho.notEmpty, ho.noSlash]

theorem statistics_attribute_eq_append {name : Text} (hn : Path.IsPart name) :
    Path.join (r.statistics iqn tag lun) name = r.lun iqn tag lun ++ '/' :: (Layout.portStatistics ++ '/' :: name) := by
  have ho : Path.Open (r.lun iqn tag lun ++ '/' :: Layout.portStatistics) := by
    refine ⟨by simp, ?_⟩
    rw [List.getLast?_append_of_ne_nil _ (List.cons_ne_nil _ _)]
    decide
  rw [statistics_eq_append r iqn tag hl, Path.join_of_open ho hn, List.append_assoc, List.cons_append]

end

end Roots

/-! Names that are shown. -/

section
variable {fs : Sysfs} {r : Roots} (named : fs.Named)
include named

theorem Topology.ShowsGroup.plain {iqn tag : Text} (h : Topology.ShowsGroup fs r iqn tag) :
    ∀ n ∈ [iqn, Layout.groupStart ++ tag, Layout.lunDir], Path.IsPlain n := by
  simp only [List.forall_mem_cons]
  exact ⟨named _ _ h.target.listed, named _ _ h.listed, by decide, List.forall_mem_nil _⟩

theorem Topology.ShowsGroup.plain_lun {iqn tag name : Text} (h : Topology.ShowsGroup fs r iqn tag)
    (hn : Path.IsPlain name) : ∀ n ∈ [iqn, Layout.groupStart ++ tag, Layout.lunDir, name], Path.IsPlain n := by
  intro n hm
  have parts : n ∈ [iqn, Layout.groupStart ++ tag, Layout.lunDir] ++ [name] := hm
  rw [List.mem_append, List.mem_singleton] at parts
  rcases parts with hm | rfl
  · exact h.plain named n hm
  · exact hn

theorem Topology.ShowsLun.plain {iqn tag lun : Text} (h : Topology.ShowsLun fs r iqn tag lun) :
    ∀ n ∈ [iqn, Layout.groupStart ++ tag, Layout.lunDir, Layout.lunStart ++ lun], Path.IsPlain n :=
  h.group.plain_lun named (named _ _ h.listed)

theorem Topology.ShowsLun.noSlash {iqn tag lun : Text} (h : Topology.ShowsLun fs r iqn tag lun) : '/' ∉ lun := by
  have hn := (named _ _ h.listed).noSlash
  rw [List.mem_append, not_or] at hn
  exact hn.2

end

/-- What a LUN is yielded with as the name of its storage object leads down from a directory. -/
theorem Walk.plain_of_yielded {fs : Sysfs} {r : Roots} {key : LunKey} {kind : BackstoreKind}
    (h : (key, kind) ∈ Walk.yielded fs r) :
    '/' ∉ key.link.store ∧ '/' ∉ key.link.number ∧ Path.IsPlain key.link.object := by
  obtain ⟨_, _, target, _, _, parsed⟩ := Walk.link_of_yielded h
  exact BackstoreLink.parse?_plain parsed

/-! Ways down from the device tree. -/

/-- Whether a name stands for a device, or for one of its attributes that are asked about. -/
def IsDevicePart (name : Text) : Prop := Text.areDigits name = true ∨ name ∈ [Layout.pool, Layout.image]

theorem IsDevicePart.plain {name : Text} (h : IsDevicePart name) : Path.IsPlain name := by
  have attributes : ∀ n ∈ [Layout.pool, Layout.image], Path.IsPlain n := by decide
  rcases h with digits | listed
  · exact isPlain_of_areDigits digits
  · exact attributes name listed

theorem IsDevicePart.not_lun {name : Text} (h : IsDevicePart name) : ¬ Layout.lunDir <+: name := by
  have fixed : ∀ n ∈ [Layout.pool, Layout.image], ¬ Layout.lunDir <+: n := by decide
  have letter : Text.isDigit 'l' = false := by decide
  intro begins
  rcases h with digits | listed
  · exact Text.not_mem_of_areDigits digits letter (begins.subset (by decide))
  · exact fixed name listed begins

section
variable {r : Roots} {dir : Text} (ho : Path.Open dir) {names : List Text} (parts : ∀ n ∈ names, IsDevicePart n)
include ho parts

theorem devices_ne_luns : Path.joinAll r.rbdDevices names ≠ Path.join dir Layout.lunDir := by
  intro e
  rcases List.eq_nil_or_concat names with rfl | ⟨front, last, rfl⟩
  · change r.rbdDevices = _ at e
    rw [r.rbdDevices_eq_join] at e
    obtain ⟨_, same⟩ := Path.join_inj (Path.Open.join _ (by decide)) ho (by decide) (by decide) e
    exact absurd same (by decide)
  · rw [List.concat_eq_append] at e parts
    have hl : IsDevicePart last := parts last (by simp)
    have above : Path.Open (Path.joinAll r.rbdDevices front) :=
      r.open_rbdDevices.joinAll fun n hn => (parts n (List.mem_append_left _ hn)).plain.toIsPart
    rw [Path.joinAll_concat] at e
    obtain ⟨_, rfl⟩ := Path.join_inj above ho hl.plain.toIsPart (by decide) e
    exact hl.not_lun (List.prefix_refl _)

theorem within_lun_of_devices {name : Text} (hn : Path.IsPart name) (begins : Layout.lunDir <+: name)
    (h : Path.Within (Path.join dir name) (Path.joinAll r.rbdDevices names)) :
    Path.Within (Path.join dir name) r.rbdDevices := by
  have plain : ∀ n ∈ names, Path.IsPart n := fun n hn => (parts n hn).plain.toIsPart
  rcases Path.within_joinAll r.open_rbdDevices plain h with above | ⟨front, last, hp, e⟩
  · exact above
  · -- the LUN would be a place on the way
    have hl : last ∈ names := hp.subset (by simp)
    have way : Path.Open (Path.joinAll r.rbdDevices front) :=
      r.open_rbdDevices.joinAll fun n hn => plain n (hp.subset (List.mem_append_left _ hn))
    obtain ⟨_, rfl⟩ := Path.join_inj ho way hn (plain last hl) e
    exact absurd begins (parts name hl).not_lun

end

/-! Storage objects. -/

/-- To resolve a link, what is asked about is on ways down from the tree of storage objects and from the device
    tree. -/
theorem Backstore.Asks.way {fs : Sysfs} {r : Roots} {link : BackstoreLink} (hnumber : '/' ∉ link.number)
    (hobject : Path.IsPlain link.object) {kind : BackstoreKind} {path : Text} (h : Asks fs r link kind path) :
    (∃ names, (∀ n ∈ names, Path.IsPlain n) ∧ path = Path.joinAll r.core names) ∨
      ∃ names, (∀ n ∈ names, IsDevicePart n) ∧ path = Path.joinAll r.rbdDevices names := by
  have object : ∀ n ∈ [kind.dirName ++ '_' :: link.number, link.object], Path.IsPlain n := by
    simp only [List.forall_mem_cons]
    exact ⟨kind.isPlain_directory hnumber, hobject, List.forall_mem_nil _⟩
  have device : ∀ {id name : Text}, Text.areDigits id = true → name ∈ [Layout.pool, Layout.image] →
      ∀ n ∈ [id, name], IsDevicePart n := by
    intro id name digits ha
    simp only [List.forall_mem_cons]
    exact ⟨Or.inl digits, Or.inr ha, List.forall_mem_nil _⟩
  cases h with
  | udevPath =>
    refine Or.inl ⟨[kind.dirName ++ '_' :: link.number, link.object] ++ [Layout.udevPath], ?_, rfl⟩
    rw [List.forall_mem_append, List.forall_mem_singleton]
    exact ⟨object, by decide⟩
  | object => exact Or.inl ⟨_, object, rfl⟩
  | devices => exact Or.inr ⟨[], List.forall_mem_nil _, rfl⟩
  | @pool id _ digits => exact Or.inr ⟨[id, Layout.pool], device digits (by simp), rfl⟩
  | @image id _ digits => exact Or.inr ⟨[id, Layout.image], device digits (by simp), rfl⟩

theorem Backstore.Asks.plain {fs : Sysfs} {r : Roots} {link : BackstoreLink} (hnumber : '/' ∉ link.number)
    (hobject : Path.IsPlain link.object) {kind : BackstoreKind} {path : Text} (h : Asks fs r link kind path) :
    r.Plain path := by
  rcases h.way hnumber hobject with ⟨names, plain, e⟩ | ⟨names, parts, e⟩
  · exact ⟨r.core, by simp, names, plain, e⟩
  · exact ⟨r.rbdDevices, by simp, names, fun n hn => (parts n hn).plain, e⟩

end LunMetrics
