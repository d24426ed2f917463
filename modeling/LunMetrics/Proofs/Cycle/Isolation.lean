import LunMetrics.FileTree.Edit
import LunMetrics.Proofs.Cycle.Accounting
import LunMetrics.Proofs.Topology.Placement

/- A cycle looks at nothing below the LUNs of a group that is not enabled. `Disabled` says of a path that it leads
   there, as a text. What a cycle asks about are ways down by plain names from the export tree, the tree of storage
   objects and the device tree:

   1. on a way from the export tree the third name is that of the LUNs only below an enabled group (`EnabledWay`),
      so the topology and the counters are read elsewhere (`Topology.Asks.outside`, `ShowsLun.counters_outside`);
   2. no way from the other two trees leads to LUNs by the names that are asked about, so storage objects are
      resolved elsewhere (`outside_of_backstore`);
   3. file systems that agree on all such ways but those into disabled groups have the same cycles
      (`run_blind_to_disabled`). -/
namespace LunMetrics

namespace Topology

section
variable (fs : Sysfs) (r : Roots)

/-- Whether a path is the directory of the LUNs of a group that is not enabled, or lies below it. -/
def Disabled (path : Text) : Prop :=
  ∃ iqn tag, ShowsGroup fs r iqn tag ∧ isEnabled fs (r.group iqn tag) = false ∧ Path.Within (r.luns iqn tag) path

/-- Whether a path is a way down from one of the three trees that keeps away from disabled groups. -/
structure Outside (path : Text) : Prop where
  plain : r.Plain path
  enabled : ¬ Disabled fs r path

/-- Whether names on the way from the export tree lead to LUNs of an enabled group, if to any. -/
def EnabledWay (names : List Text) : Prop :=
  ∀ iqn tag, [iqn, Layout.groupStart ++ tag, Layout.lunDir] <+: names → isEnabled fs (r.group iqn tag) = true

end

variable {fs : Sysfs} {r : Roots}

/-! Ways from the export tree. -/

theorem enabledWay_of_enabled {iqn tag : Text} (h : isEnabled fs (r.group iqn tag) = true) (names : List Text) :
    EnabledWay fs r (iqn :: (Layout.groupStart ++ tag) :: Layout.lunDir :: names) := by
  intro iqn' tag' hp
  simp only [List.cons_prefix_cons, List.append_cancel_left_eq] at hp
  obtain ⟨rfl, rfl, _⟩ := hp
  exact h

section
variable (named : fs.Named)
include named

/-- Only ways to the LUNs of disabled groups lead into them. -/
theorem EnabledWay.outside {names : List Text} (h : EnabledWay fs r names) (plain : ∀ n ∈ names, Path.IsPlain n) :
    Outside fs r (Path.joinAll r.iscsi names) where
  plain := ⟨r.iscsi, List.mem_cons_self, names, plain, rfl⟩
  enabled disabled := by
    obtain ⟨iqn, tag, shown, off, within⟩ := disabled
    rw [r.luns_eq, Path.within_joinAll_iff r.open_iscsi (fun n hn => (shown.plain named n hn).toIsPart)
      fun n hn => (plain n hn).toIsPart] at within
    rw [h iqn tag within] at off
    cases off

theorem ShowsLun.outside {iqn tag lun : Text} (h : ShowsLun fs r iqn tag lun) {names : List Text}
    (plain : ∀ n ∈ names, Path.IsPlain n) : Outside fs r (Path.joinAll (r.lun iqn tag lun) names) := by
  have way : EnabledWay fs r ([iqn, Layout.groupStart ++ tag, Layout.lunDir, Layout.lunStart ++ lun] ++ names) :=
    enabledWay_of_enabled h.enabled _
  rw [r.lun_eq, ← Path.joinAll_append]
  apply way.outside named
  intro n hn
  rcases List.mem_append.1 hn with hn | hn
  · exact h.plain named n hn
  · exact plain n hn

theorem Asks.outside {path : Text} (h : Asks fs r path) : Outside fs r path := by
  cases h with
  | root =>
    have way : EnabledWay fs r [] := fun iqn tag hp => by simp at hp
    exact way.outside named (List.forall_mem_nil _)
  | @target iqn h =>
    have way : EnabledWay fs r [iqn] := fun iqn' tag hp => by simp at hp
    exact way.outside named (List.forall_mem_singleton.2 (named _ _ h.listed))
  | @enable iqn tag h =>
    -- the attribute stands beside the LUNs
    have way : EnabledWay fs r [iqn, Layout.groupStart ++ tag, Layout.enable] := by
      intro iqn' tag' hp
      simp only [List.cons_prefix_cons] at hp
      exact absurd hp.2.2.1 (by decide)
    apply way.outside named
    simp only [List.forall_mem_cons]
    exact ⟨named _ _ h.target.listed, named _ _ h.listed, by decide, List.forall_mem_nil _⟩
  | luns h he => exact (enabledWay_of_enabled he []).outside named (h.plain named)
  | lun h => exact h.outside named (List.forall_mem_nil _)
  | entry h hn => exact h.outside named (List.forall_mem_singleton.2 (named _ _ hn))

theorem ShowsLun.counters_outside {iqn tag lun : Text} (h : ShowsLun fs r iqn tag lun) {path : Text}
    (asked : Statistics.Asks r iqn tag lun path) : Outside fs r path := by
  have fixed : ∀ name ∈ [Layout.readUnits, Layout.writeUnits, Layout.commands],
      ∀ n ∈ ["statistics".toList, "scsi_tgt_port".toList, name], Path.IsPlain n := by decide
  cases asked with
  | @counter name hn =>
    rw [r.statistics_eq, ← Path.joinAll_concat]
    exact h.outside named (fixed name hn)

theorem Disabled.within_iscsi {path : Text} (h : Disabled fs r path) : Path.Within r.iscsi path := by
  obtain ⟨iqn, tag, shown, _, within⟩ := h
  have above : Path.Within r.iscsi (r.luns iqn tag) := by
    rw [r.luns_eq]
    exact Path.within_joinAll_of r.open_iscsi fun n hn => (shown.plain named n hn).toIsPart
  exact above.trans within

/-! Ways from the other trees. -/

theorem outside_of_core {names : List Text} (plain : ∀ n ∈ names, Path.IsPlain n) :
    Outside fs r (Path.joinAll r.core names) where
  plain := ⟨r.core, by simp, names, plain, rfl⟩
  enabled disabled :=
    r.iscsi_apart_core (disabled.within_iscsi named)
      (Path.within_joinAll_of r.open_core fun n hn => (plain n hn).toIsPart)

theorem outside_of_devices (devices : ¬ Disabled fs r r.rbdDevices) {names : List Text}
    (parts : ∀ n ∈ names, IsDevicePart n) : Outside fs r (Path.joinAll r.rbdDevices names) where
  plain := ⟨r.rbdDevices, by simp, names, fun n hn => (parts n hn).plain, rfl⟩
  enabled disabled := by
    obtain ⟨iqn, tag, shown, off, within⟩ := disabled
    have group : Path.Open (r.group iqn tag) := Path.Open.join _ (named _ _ shown.listed).toIsPart
    have above := within_lun_of_devices group parts (by decide) (List.prefix_refl _) within
    exact devices ⟨iqn, tag, shown, off, above⟩

/-- Storage objects are resolved outside of disabled groups. -/
theorem outside_of_backstore (devices : ¬ Disabled fs r r.rbdDevices) {link : BackstoreLink}
    (hnumber : '/' ∉ link.number) (hobject : Path.IsPlain link.object) {kind : BackstoreKind} {path : Text}
    (asked : Backstore.Asks fs r link kind path) : Outside fs r path := by
  rcases asked.way hnumber hobject with ⟨names, plain, rfl⟩ | ⟨names, parts, rfl⟩
  · exact outside_of_core named plain
  · exact outside_of_devices named devices parts

end

end Topology

/-! The cycle. -/

namespace Cycle

section
variable {fs fs' : Sysfs} {x : Exporter} (named : fs.Named) (devices : ¬ Topology.Disabled fs x.roots x.roots.rbdDevices)
include named devices

theorem Asks.outside {path : Text} (h : Asks fs x.roots path) : Topology.Outside fs x.roots path := by
  cases h with
  | topology h => exact h.outside named
  | backstore hl h =>
    obtain ⟨_, hnumber, hobject⟩ := Walk.plain_of_yielded hl
    exact Topology.outside_of_backstore named devices hnumber hobject h
  | counters hl h => exact (Walk.mem_yielded hl).1.counters_outside named h

/-- Two file systems that give the same answers about all ways down from the three trees, except those to and
    below the LUNs of groups that are not enabled, have the same cycles at every sink: the same end, the same
    events and the same result, with the same samples handed over. Nothing that a cycle asks about is in such a
    group. -/
theorem run_blind_to_disabled (agree : fs.AgreeOn fs' (Topology.Outside fs x.roots)) {σ : Type}
    (send : Sample → σ → σ × Option SinkFault) (s : σ) :
    run (.steady fs send) x s = run (.steady fs' send) x s ∧
      deliveries (.steady fs send) x s = deliveries (.steady fs' send) x s ∧
      ∀ path, Asks fs x.roots path → ¬ Topology.Disabled fs x.roots path := by
  have asked : fs.AgreeOn fs' (Asks fs x.roots) := fun path h => agree path (h.outside named devices)
  exact ⟨run_congr send asked s, deliveries_congr send asked s, fun path h => (h.outside named devices).enabled⟩

end

end Cycle

/-! A group that is not enabled. -/

/-- The small tree with a second group, not enabled, whose LUN has no counters. -/
def FileTree.idle : FileTree :=
  let group := ["c".toList, "target".toList, "iscsi".toList, "iqn.a".toList, "tpgt_2".toList]
  let dir := group ++ [Layout.lunDir, "lun_0".toList]
  ((((specimen.put group .directory).put (group ++ [Layout.enable]) (.file [0x30, 0x0a])).put
    (group ++ [Layout.lunDir]) .directory).put dir .directory).put (dir ++ [['a']]) (.link "core/rd_mcp_0/disk".toList)

/-- File systems with other ones mounted over a directory. -/
def Sysfs.mounted (fs : Sysfs) (dir : Text) (other : Sysfs) : Sysfs :=
  let at? (path : Text) : Sysfs := if Path.Within dir path then other else fs
  { isThere := fun path => (at? path).isThere path
    read := fun path => (at? path).read path
    readLink := fun path => (at? path).readLink path
    isLink := fun path => (at? path).isLink path
    isDirectory := fun path => (at? path).isDirectory path
    list := fun path => (at? path).list path }

theorem Sysfs.mounted_agreeAt {fs other : Sysfs} {dir path : Text} (h : ¬ Path.Within dir path) :
    fs.AgreeAt (fs.mounted dir other) path := by
  constructor <;> simp only [mounted, if_neg h]

namespace Cycle

theorem idle_legal : FileTree.idle.Legal := by decide +kernel

def idleLuns : Text := Roots.specimen.luns "iqn.a".toList "2".toList

def vacated : Sysfs := FileTree.idle.sysfs.mounted idleLuns FileTree.empty.sysfs

theorem idle_shows : Topology.ShowsGroup FileTree.idle.sysfs Roots.specimen "iqn.a".toList "2".toList where
  target := ⟨by decide +kernel, by decide⟩
  listed := by decide +kernel

/-- The LUNs of the group are listed in the one and not in the other, and the cycles are the same. -/
theorem idle_blind_to_disabled :
    FileTree.idle.sysfs.list idleLuns = .ok ["lun_0".toList] ∧ vacated.list idleLuns = .error (.unlistable idleLuns) ∧
      run (.steady FileTree.idle.sysfs Recorder.send) Exporter.specimen Recorder.fresh =
        run (.steady vacated Recorder.send) Exporter.specimen Recorder.fresh ∧
      deliveries (.steady FileTree.idle.sysfs Recorder.send) Exporter.specimen Recorder.fresh =
        deliveries (.steady vacated Recorder.send) Exporter.specimen Recorder.fresh ∧
      ∀ path, Asks FileTree.idle.sysfs Roots.specimen path →
        ¬ Topology.Disabled FileTree.idle.sysfs Roots.specimen path := by
  have named : FileTree.idle.sysfs.Named := idle_legal.sysfs_named
  refine ⟨rfl, rfl, run_blind_to_disabled named ?_ ?_ Recorder.send Recorder.fresh⟩
  · intro disabled
    exact absurd (disabled.within_iscsi named) (by decide)
  · intro path outside
    apply Sysfs.mounted_agreeAt
    intro within
    exact outside.enabled ⟨_, _, idle_shows, rfl, within⟩

end Cycle
end LunMetrics
