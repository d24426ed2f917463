import LunMetrics.FileTree.Edit
import LunMetrics.Proofs.Backstore.Directory
import LunMetrics.Proofs.Cycle.Accounting
import LunMetrics.Proofs.Statistics.Reading

/- What the samples of a cycle are attributed to. A LUN is found by its directory, through names that are listed;
   its counters and its storage object are then found by its key, through paths that are made of labels. Every
   sample that is handed over is one of a LUN of the walk, resolved and counted in one state
   (`origin_of_delivery`), and

   1. the statistics that are read are below the very directory that the link was found in, and those of different
      LUNs are apart, so that counters are those of the LUN that links to the storage object
      (`counters_follow_links`);
   2. the storage object that is looked up, and that gives its name to the labels, is the one that the link points
      at exactly if the type token of the link is not the name of a RAM disk's kind, which names a directory of
      another beginning (`objects_follow_links_unless_renamed`). -/
namespace LunMetrics

/-! Samples that are handed over. -/

namespace Cycle

section
variable {σ : Type} (st : Station σ) (x : Exporter) (s : σ)

/-- What is handed over is a sample of a LUN of the walk that was resolved and counted in one state. -/
theorem origin_of_delivery {d : Delivery σ} (h : d ∈ deliveries st x s) :
    ∃ key kind, (key, kind) ∈ Walk.yielded (st.sysfs s) x.roots ∧ ∃ s' i v,
      Ready (st.sysfs s') x key kind i v ∧ d.sample ∈ triple key kind x.namespacePart i v := by
  obtain ⟨bs, hbs, hb⟩ := run_handsOver st x s
  unfold deliveries at h
  rw [hbs, List.nil_append] at h
  obtain ⟨b, hmem, hd⟩ := List.mem_flatMap.1 h
  have sound := hb.sound b hmem
  refine ⟨b.key, b.kind, hb.among.subset (List.mem_map_of_mem hmem), b.state, b.identity, b.values, sound.ready, ?_⟩
  exact sound.order.subset (List.mem_map_of_mem hd)

theorem labels_of_mem_triple {key : LunKey} {kind : BackstoreKind} {ns : Text} {i : Identity} {v : Emission.Values}
    {y : Sample} (h : y ∈ triple key kind ns i v) : y.labels = key.exportLabels ++ i.labelValues := by
  simp only [triple, List.mem_cons, List.not_mem_nil, or_false] at h
  rcases h with rfl | rfl | rfl <;> rfl

end

end Cycle

/-! The counters. -/

namespace Topology

/-- Whether a LUN with this key is found in a directory: listed names lead there, whose rests are the labels of the
    key, and a look for a link in the directory comes upon the one of the key. -/
inductive FoundIn (fs : Sysfs) (r : Roots) (key : LunKey) : Text → Prop
  | listed {group lun : Text} :
      key.iqn ∈ shown fs r.iscsi →
      group ∈ shown fs (Path.join r.iscsi key.iqn) → Text.after? Layout.groupStart group = some key.tpgt →
      lun ∈ shown fs (Path.join (Path.join (Path.join r.iscsi key.iqn) group) Layout.lunDir) →
      Text.after? Layout.lunStart lun = some key.lun →
      (readLink fs (Path.join (Path.join (Path.join (Path.join r.iscsi key.iqn) group) Layout.lunDir) lun)).value =
        some key.link →
      FoundIn fs r key (Path.join (Path.join (Path.join (Path.join r.iscsi key.iqn) group) Layout.lunDir) lun)

variable {fs : Sysfs} {r : Roots} {key : LunKey}

theorem FoundIn.dir_eq {dir : Text} (h : FoundIn fs r key dir) : dir = r.lun key.iqn key.tpgt key.lun := by
  cases h with
  | listed _ _ hg _ hl _ =>
    rw [(Text.after?_eq_some_iff _ _ _).1 hg, (Text.after?_eq_some_iff _ _ _).1 hl]
    rfl

/-- A LUN of the walk is found in a directory. -/
theorem foundIn_of_yielded {kind : BackstoreKind} (h : (key, kind) ∈ Walk.yielded fs r) :
    FoundIn fs r key (r.lun key.iqn key.tpgt key.lun) := by
  obtain ⟨shown, backing, _⟩ := Walk.mem_yielded h
  refine FoundIn.listed shown.group.target.listed shown.group.listed ((Text.after?_eq_some_iff _ _ _).2 rfl)
    shown.listed ((Text.after?_eq_some_iff _ _ _).2 rfl) ?_
  rw [value_readLink]
  exact backing

end Topology

/-- The counters of a LUN are the numbers in three attributes below its directory. -/
theorem Statistics.natural_of_read {fs : Sysfs} {r : Roots} {iqn tpgt lun : Text} (hl : '/' ∉ lun) {c : Counters}
    (h : (read fs r iqn tpgt lun).value = .ok c) : ∃ reads writes ops : Nat, c = ⟨reads, writes, ops⟩ ∧
      fs.natural (r.lun iqn tpgt lun ++ "/statistics/scsi_tgt_port/read_mbytes".toList) = .ok reads ∧
      fs.natural (r.lun iqn tpgt lun ++ "/statistics/scsi_tgt_port/write_mbytes".toList) = .ok writes ∧
      fs.natural (r.lun iqn tpgt lun ++ "/statistics/scsi_tgt_port/in_cmds".toList) = .ok ops := by
  obtain ⟨reads, writes, ops, rfl, hr⟩ := value_read_eq_ok_iff.1 h
  obtain ⟨hreads, hwrites, hops⟩ := readIn_eq_ok_iff.1 hr
  rw [r.statistics_attribute_eq_append iqn tpgt hl (by decide)] at hreads hwrites hops
  exact ⟨reads, writes, ops, rfl, hreads, hwrites, hops⟩

namespace Walk

/-- LUNs of a walk with the same labels are the same. -/
theorem eq_of_labels {fs : Sysfs} {r : Roots} {a b : LunKey × BackstoreKind} (ha : a ∈ yielded fs r)
    (hb : b ∈ yielded fs r) (same : a.1.exportLabels = b.1.exportLabels) : a = b := by
  obtain ⟨⟨iqn, tpgt, lun, link⟩, kind⟩ := a
  obtain ⟨⟨iqn', tpgt', lun', link'⟩, kind'⟩ := b
  simp only [LunKey.exportLabels, List.cons.injEq, and_true] at same
  obtain ⟨rfl, rfl, rfl⟩ := same
  -- the labels tell the directory, it tells the link, and the link tells the kind
  obtain ⟨_, backing, known⟩ := mem_yielded ha
  obtain ⟨_, backing', known'⟩ := mem_yielded hb
  cases backing.symm.trans backing'
  cases known.symm.trans known'
  rfl

end Walk

namespace Cycle

theorem statistics_apart {fs : Sysfs} {r : Roots} (named : fs.Named) {a b : LunKey × BackstoreKind}
    (ha : a ∈ Walk.yielded fs r) (hb : b ∈ Walk.yielded fs r) (differ : a ≠ b) :
    ¬ Path.Within (r.statistics a.1.iqn a.1.tpgt a.1.lun) (r.statistics b.1.iqn b.1.tpgt b.1.lun) := by
  intro within
  have below : ∀ n ∈ ["statistics".toList, "scsi_tgt_port".toList], Path.IsPart n := by decide
  have parts : ∀ l ∈ Walk.yielded fs r, ∀ n ∈ [l.1.iqn, Layout.groupStart ++ l.1.tpgt, Layout.lunDir,
      Layout.lunStart ++ l.1.lun] ++ ["statistics".toList, "scsi_tgt_port".toList], Path.IsPart n := by
    intro l hl n hn
    rcases List.mem_append.1 hn with hn | hn
    · exact ((Walk.mem_yielded hl).1.plain named n hn).toIsPart
    · exact below n hn
  rw [r.statistics_eq, r.statistics_eq] at within
  have names := (Path.within_joinAll_iff r.open_iscsi (parts a ha) (parts b hb)).1 within
  simp only [List.cons_append, List.nil_append, List.cons_prefix_cons, List.append_cancel_left_eq] at names
  obtain ⟨hiqn, htpgt, _, hlun, _⟩ := names
  apply differ
  apply Walk.eq_of_labels ha hb
  simp only [LunKey.exportLabels, hiqn, htpgt, hlun]

section
variable {σ : Type} (st : Station σ) (x : Exporter) (s : σ)

/-- Whatever happens during a cycle, where listings show nothing but names:

    * every LUN of the walk is found in a directory, and its statistics are below that directory;
    * the statistics of two LUNs of the walk are not the same, and neither is below the other's;
    * every sample that is handed over is one of a LUN of the walk, with the labels of the storage object that its
      link is resolved to, and with the numbers that three attributes below the directory of the link hold in the
      same state. -/
theorem counters_follow_links (named : (st.sysfs s).Named) :
    (∀ l ∈ Walk.yielded (st.sysfs s) x.roots, (∃ dir, Topology.FoundIn (st.sysfs s) x.roots l.1 dir) ∧
      ∀ dir, Topology.FoundIn (st.sysfs s) x.roots l.1 dir →
        x.roots.statistics l.1.iqn l.1.tpgt l.1.lun = dir ++ "/statistics/scsi_tgt_port".toList) ∧
    (∀ a ∈ Walk.yielded (st.sysfs s) x.roots, ∀ b ∈ Walk.yielded (st.sysfs s) x.roots, a ≠ b →
      x.roots.statistics a.1.iqn a.1.tpgt a.1.lun ≠ x.roots.statistics b.1.iqn b.1.tpgt b.1.lun ∧
        ¬ Path.Within (x.roots.statistics a.1.iqn a.1.tpgt a.1.lun) (x.roots.statistics b.1.iqn b.1.tpgt b.1.lun)) ∧
    ∀ d ∈ deliveries st x s, ∃ key kind, (key, kind) ∈ Walk.yielded (st.sysfs s) x.roots ∧
      ∃ dir, Topology.FoundIn (st.sysfs s) x.roots key dir ∧ ∃ s' i v,
        d.sample ∈ triple key kind x.namespacePart i v ∧
        (Backstore.resolve (st.sysfs s') x.roots key.link kind).value = .ok (some i) ∧
        ∃ reads writes ops : Nat,
          (st.sysfs s').natural (dir ++ "/statistics/scsi_tgt_port/read_mbytes".toList) = .ok reads ∧
          (st.sysfs s').natural (dir ++ "/statistics/scsi_tgt_port/write_mbytes".toList) = .ok writes ∧
          (st.sysfs s').natural (dir ++ "/statistics/scsi_tgt_port/in_cmds".toList) = .ok ops ∧
          Binary64.bytesOfUnits? reads = some v.read ∧ Binary64.bytesOfUnits? writes = some v.write ∧
          Binary64.ofInt? ops = some v.ops := by
  have below : ∀ l ∈ Walk.yielded (st.sysfs s) x.roots, x.roots.statistics l.1.iqn l.1.tpgt l.1.lun =
      x.roots.lun l.1.iqn l.1.tpgt l.1.lun ++ "/statistics/scsi_tgt_port".toList := fun l hl =>
    x.roots.statistics_eq_append _ _ ((Walk.mem_yielded hl).1.noSlash named)
  refine ⟨?_, ?_, ?_⟩
  · intro l hl
    refine ⟨⟨_, Topology.foundIn_of_yielded hl⟩, fun dir found => ?_⟩
    rw [found.dir_eq]
    exact below l hl
  · intro a ha b hb differ
    have apart := statistics_apart named ha hb differ
    refine ⟨fun e => ?_, apart⟩
    rw [e] at apart
    exact apart (Path.Within.refl _)
  · intro d hd
    obtain ⟨key, kind, hl, s', i, v, ready, hy⟩ := origin_of_delivery st x s hd
    obtain ⟨c, hc, hv⟩ := ready.counted
    obtain ⟨reads, writes, ops, rfl, hreads, hwrites, hops⟩ :=
      Statistics.natural_of_read ((Walk.mem_yielded hl).1.noSlash named) hc
    have doubles := (Emission.values?_eq_some_iff _ v).1 hv
    simp only at doubles
    exact ⟨key, kind, hl, _, Topology.foundIn_of_yielded hl, s', i, v, hy, ready.matched, reads, writes, ops, hreads,
      hwrites, hops, doubles⟩

end

/-- The small tree hands over the samples of its disk. -/
theorem specimen_counters_follow_links :
    (∃ dir, Topology.FoundIn FileTree.specimen.sysfs Roots.specimen (LunKey.specimen "0" "rd_mcp" "0" "disk") dir ∧
      Roots.specimen.statistics "iqn.a".toList "1".toList "0".toList = dir ++ "/statistics/scsi_tgt_port".toList) ∧
    ¬ Path.Within (Roots.specimen.statistics "iqn.a".toList "1".toList "0".toList)
      (Roots.specimen.statistics "iqn.a".toList "1".toList "1".toList) ∧
    (deliveries (Recorder.station FileTree.specimen.sysfs) Exporter.specimen Recorder.fresh).length = 3 ∧
    ∀ d ∈ deliveries (Recorder.station FileTree.specimen.sysfs) Exporter.specimen Recorder.fresh,
      ∃ key kind, (key, kind) ∈ Walk.yielded FileTree.specimen.sysfs Roots.specimen ∧
        ∃ dir, Topology.FoundIn FileTree.specimen.sysfs Roots.specimen key dir := by
  have named : FileTree.specimen.sysfs.Named := FileTree.specimen_legal.sysfs_named
  have yielded : Walk.yielded FileTree.specimen.sysfs Roots.specimen =
      [(LunKey.specimen "0" "rd_mcp" "0" "disk", .rdmcp), (LunKey.specimen "1" "rd_mcp" "1" "gone", .rdmcp),
        (LunKey.specimen "2" "fileio" "2" "broken", .fileio)] := rfl
  have disk : (LunKey.specimen "0" "rd_mcp" "0" "disk", .rdmcp) ∈
      Walk.yielded FileTree.specimen.sysfs Roots.specimen := by simp [yielded]
  have gone : (LunKey.specimen "1" "rd_mcp" "1" "gone", .rdmcp) ∈
      Walk.yielded FileTree.specimen.sysfs Roots.specimen := by simp [yielded]
  obtain ⟨found, apart, origin⟩ := counters_follow_links (Recorder.station FileTree.specimen.sysfs)
    Exporter.specimen Recorder.fresh named
  refine ⟨?_, (apart _ disk _ gone (by decide)).2, by decide +kernel, ?_⟩
  · obtain ⟨⟨dir, hdir⟩, below⟩ := found _ disk
    exact ⟨dir, hdir, below dir hdir⟩
  · intro d hd
    obtain ⟨key, kind, hl, dir, hdir, _⟩ := origin d hd
    exact ⟨key, kind, hl, dir, hdir⟩

/-! The storage object. -/

section
variable {σ : Type} (st : Station σ) (x : Exporter) (s : σ)

/-- Whatever happens during a cycle:

    * every LUN of the walk has the last two components of a link that its directory shows; to resolve it,
      nothing is asked about outside of one directory in the tree of storage objects and of the device tree, and
      that directory is the one named by the two components exactly if the type token is not the name of a RAM
      disk's kind;
    * every sample that is handed over is one of a LUN of the walk, with the name of that directory after the
      export labels, which is the name in the link exactly if the same holds. -/
theorem objects_follow_links_unless_renamed :
    (∀ key kind, (key, kind) ∈ Walk.yielded (st.sysfs s) x.roots →
      (∃ name ∈ Topology.shown (st.sysfs s) (x.roots.lun key.iqn key.tpgt key.lun), ∃ target front,
        (st.sysfs s).isLink (Path.join (x.roots.lun key.iqn key.tpgt key.lun) name) = true ∧
          (st.sysfs s).readLink (Path.join (x.roots.lun key.iqn key.tpgt key.lun) name) = .ok target ∧
          Path.normalParts target = front ++ [key.link.dirName, key.link.object]) ∧
      (∀ fs path, Backstore.Asks fs x.roots key.link kind path →
        Path.Within (x.roots.object kind.dirName key.link.number key.link.object) path ∨
          Path.Within x.roots.rbdDevices path) ∧
      (x.roots.object kind.dirName key.link.number key.link.object =
          Path.joinAll x.roots.core [key.link.dirName, key.link.object] ↔
        key.link.store ≠ BackstoreKind.rdmcp.name)) ∧
    ∀ d ∈ deliveries st x s, ∃ key kind, (key, kind) ∈ Walk.yielded (st.sysfs s) x.roots ∧
      (∃ rest, d.sample.labels = key.exportLabels ++ Backstore.directoryName kind key.link :: rest) ∧
      (Backstore.directoryName kind key.link = key.link.dirName ↔ key.link.store ≠ BackstoreKind.rdmcp.name) := by
  refine ⟨?_, ?_⟩
  · intro key kind h
    obtain ⟨_, _, known⟩ := Walk.mem_yielded h
    obtain ⟨hstore, hnumber, hobject⟩ := Walk.plain_of_yielded h
    refine ⟨?_, fun fs path asked => asked.within hobject, ?_⟩
    · obtain ⟨name, hn, target, isLink, read, parsed⟩ := Walk.link_of_yielded h
      obtain ⟨⟨front, ends⟩, _⟩ := (BackstoreLink.parse?_eq_some_iff _ _).1 parsed
      exact ⟨name, hn, target, front, isLink, read, ends⟩
    · rw [Backstore.object_eq_iff x.roots hstore hnumber hobject, Backstore.directoryName_eq_iff known]
  · intro d hd
    obtain ⟨key, kind, h, s', i, v, ready, hy⟩ := origin_of_delivery st x s hd
    obtain ⟨_, _, known⟩ := Walk.mem_yielded h
    obtain ⟨rest, values⟩ := (Backstore.resolve_identifies ready.matched).labels
    refine ⟨key, kind, h, ⟨rest, ?_⟩, Backstore.directoryName_eq_iff known⟩
    rw [labels_of_mem_triple hy, values]

end

/-- The small tree with its disk in two directories, one of them named by the kind, and a link to this one. -/
def renamed : FileTree :=
  let core := ["c".toList, "target".toList, "core".toList, "rdmcp_0".toList]
  let dir := ["c".toList, "target".toList, "iscsi".toList, "iqn.a".toList, "tpgt_1".toList, Layout.lunDir, "lun_0".toList]
  ((FileTree.specimen.put core .directory).put (core ++ ["disk".toList]) .directory).put (dir ++ [['b']])
    (.link "core/rdmcp_0/disk".toList)

/-- Both directories are there, the link points at the one, and the other one is looked up. -/
theorem renamed_looks_elsewhere :
    (LunKey.specimen "0" "rdmcp" "0" "disk", .rdmcp) ∈ Walk.yielded renamed.sysfs Roots.specimen ∧
      renamed.sysfs.isDirectory (Path.joinAll Roots.specimen.core ["rdmcp_0".toList, "disk".toList]) = true ∧
      renamed.sysfs.isDirectory (Roots.specimen.object BackstoreKind.rdmcp.dirName "0".toList "disk".toList) = true ∧
      Roots.specimen.object BackstoreKind.rdmcp.dirName "0".toList "disk".toList ≠
        Path.joinAll Roots.specimen.core ["rdmcp_0".toList, "disk".toList] := by
  have disk : (LunKey.specimen "0" "rdmcp" "0" "disk", .rdmcp) ∈ Walk.yielded renamed.sysfs Roots.specimen := by
    decide +kernel
  refine ⟨disk, rfl, rfl, ?_⟩
  intro same
  obtain ⟨_, _, follows⟩ := (objects_follow_links_unless_renamed (Recorder.station renamed.sysfs) Exporter.specimen
    Recorder.fresh).1 _ _ disk
  exact follows.1 same rfl

end Cycle
end LunMetrics
