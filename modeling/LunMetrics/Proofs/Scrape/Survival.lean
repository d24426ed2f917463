import LunMetrics.Scrape
import LunMetrics.Proofs.Sink.Families

/- What a scrape survives. Trouble at a LUN ends the cycle early and leaves the scrape with fewer samples, and the
   families refuse nothing that a cycle sends; with device names in ASCII no device number is at fault. What is
   left is a counter that does not fit into a double, at a LUN that the cycle comes to (`ReachesOverflow`): then
   the scrape fails, and otherwise it yields every family (`collect_survives_unless_overflow`). -/
namespace LunMetrics.Scrape

open LunMetrics.Cycle

/-- Whether a cycle comes to a LUN with a counter that is too large for a double. -/
def ReachesOverflow (fs : Sysfs) (x : Exporter) : Prop :=
  ∃ before key kind after, (Walk.luns fs x.roots).value = .ok (before ++ (key, kind) :: after) ∧
    (∀ l ∈ before, ∃ chunk, Settles fs x l chunk) ∧ Overflows fs x key kind

section
variable {fs : Sysfs} {x : Exporter}

theorem collect_eq_ok {n : Nat}
    (h : (run (Families.station fs) x (Families.ofNamespace x.namespacePart)).result = .ok n) :
    (collect fs x).result =
      .ok (run (Families.station fs) x (Families.ofNamespace x.namespacePart)).state.toList := by
  unfold collect
  simp only [h]

theorem collect_eq_error {fault : CycleFault}
    (h : (run (Families.station fs) x (Families.ofNamespace x.namespacePart)).result = .error fault) :
    (collect fs x).result = .error fault := by
  unfold collect
  simp only [h]

theorem map_frame_eq_describe {f : Families} (h : f.frames = (Families.ofNamespace x.namespacePart).frames) :
    f.toList.map Family.frame = describe x := by
  -- dropping names and dropping samples can change places
  have frames : ∀ g : Families, g.toList.map Family.frame = g.frames.map (·.2) := by
    intro g
    unfold Families.toList Families.frames
    rw [List.map_map, List.map_map]
    rfl
  calc f.toList.map Family.frame = f.frames.map (·.2) := frames f
    _ = (Families.ofNamespace x.namespacePart).frames.map (·.2) := by rw [h]
    _ = describe x := by
      unfold describe Families.toList Families.frames Families.ofNamespace
      rw [List.map_map, List.map_map, List.map_map]
      rfl

end

variable {t : FileTree} {x : Exporter}

/-- With device names in ASCII the only fault that a cycle does not survive is an overflow. -/
theorem overflows_of_breaks (legal : t.Legal) (ascii : t.AsciiIds x.roots) {key : LunKey} {kind : BackstoreKind}
    {fault : CycleFault} (h : Breaks t.sysfs x key kind fault) : Overflows t.sysfs x key kind := by
  cases h with
  | deviceNumber f hr => exact absurd hr (Backstore.resolve_ne_deviceNumber legal ascii.decimal _ _ f)
  | overflow ho => exact ho

/-- A scrape of a legal file tree with device names in ASCII fails, with an overflow, if its cycle comes to a LUN
    with a counter that is too large for a double. Otherwise it yields the described families, with the samples
    of the cycle, and every descriptor has one. -/
theorem collect_survives_unless_overflow (legal : t.Legal) (ascii : t.AsciiIds x.roots) :
    (ReachesOverflow t.sysfs x → (collect t.sysfs x).result = .error .overflow) ∧
    (¬ ReachesOverflow t.sysfs x →
      ∃ families, (collect t.sysfs x).result = .ok families ∧ families.map Family.frame = describe x) ∧
    (Metric.descriptors x.namespacePart).map Family.ofDescriptor = (describe x).map .ok := by
  have still := Families.station_still t.sysfs x.namespacePart
  refine ⟨?_, ?_, ?_⟩
  · intro reaches
    obtain ⟨before, key, kind, after, hl, hbefore, ho⟩ := reaches
    obtain ⟨chunks, hc⟩ := settle_all before hbefore
    obtain ⟨es, f, _, _, _, hrun⟩ := run_broken still rfl hl hc (Breaks.overflow ho)
    apply collect_eq_error
    rw [hrun]
  · intro never
    -- the cycle ends with a count in all cases: no listing, no trouble, trouble
    have ended : ∃ es f n, f.frames = (Families.ofNamespace x.namespacePart).frames ∧
        run (Families.station t.sysfs) x (Families.ofNamespace x.namespacePart) = ⟨f, es, .ok n⟩ := by
      cases hl : (Walk.luns t.sysfs x.roots).value with
      | error a =>
        rw [← still.fixed (Families.ofNamespace x.namespacePart) rfl] at hl
        obtain ⟨es, _, hrun⟩ := run_absent hl
        exact ⟨es, _, 0, rfl, hrun⟩
      | ok found =>
        rcases first_unsettled t.sysfs x found with h | ⟨before, l, after, rfl, h, ⟨trouble, stops⟩ | ⟨fault, breaks⟩⟩
        · obtain ⟨chunks, hc⟩ := settle_all found h
          obtain ⟨es, f, _, _, hf, hrun⟩ := run_settled still rfl hl hc
          exact ⟨es, f, _, hf, hrun⟩
        · obtain ⟨chunks, hc⟩ := settle_all before h
          obtain ⟨es, f, _, _, hf, hrun⟩ := run_stopped still rfl hl hc stops
          exact ⟨_, f, _, hf, hrun⟩
        · exact absurd ⟨before, l.1, l.2, after, hl, h, overflows_of_breaks legal ascii breaks⟩ never
    obtain ⟨es, f, n, hf, hrun⟩ := ended
    refine ⟨f.toList, ?_, map_frame_eq_describe hf⟩
    rw [collect_eq_ok (by rw [hrun]), hrun]
  · unfold describe Families.toList Families.ofNamespace
    rw [List.map_map, List.map_map]
    apply List.map_congr_left
    intro d hd
    exact Family.ofDescriptor_eq hd

/-! A counter of four hundred digits. -/

/-- The small tree with a huge number of mebibytes read from its RAM disk. -/
def overflowing : FileTree :=
  FileTree.specimen.put
    ["c".toList, "target".toList, "iscsi".toList, "iqn.a".toList, "tpgt_1".toList, "lun".toList, "lun_0".toList,
      "statistics".toList, "scsi_tgt_port".toList, "read_mbytes".toList]
    (.file (List.replicate 400 0x39))

theorem overflowing_legal : overflowing.Legal := by decide +kernel

theorem overflowing_ids : overflowing.AsciiIds Roots.specimen :=
  FileTree.asciiIds_of_names (p := .inside ["s".toList, "devices".toList, "rbd".toList]) rfl rfl

theorem overflowing_reaches : ReachesOverflow overflowing.sysfs Exporter.specimen := by
  have huge : (Statistics.read overflowing.sysfs Roots.specimen "iqn.a".toList "1".toList
      "0".toList).value.toOption.map Emission.values? = some none := by decide +kernel
  have overflows : Overflows overflowing.sysfs Exporter.specimen (LunKey.specimen "0" "rd_mcp" "0" "disk") .rdmcp := by
    cases hc : (Statistics.read overflowing.sysfs Roots.specimen "iqn.a".toList "1".toList "0".toList).value with
    | error f =>
      rw [hc] at huge
      cases huge
    | ok c =>
      rw [hc] at huge
      exact ⟨.rdmcp "rd_mcp_0".toList "disk".toList, c, rfl, hc, Option.some.inj huge⟩
  exact ⟨[], _, _, _, rfl, fun l hl => absurd hl List.not_mem_nil, overflows⟩

theorem specimen_survives_overflowing_fails :
    (collect overflowing.sysfs Exporter.specimen).result = .error .overflow ∧
      ∃ families, (collect FileTree.specimen.sysfs Exporter.specimen).result = .ok families ∧
        families.map Family.frame = describe Exporter.specimen := by
  refine ⟨(collect_survives_unless_overflow (x := Exporter.specimen) overflowing_legal overflowing_ids).1
    overflowing_reaches, ?_⟩
  apply (collect_survives_unless_overflow (x := Exporter.specimen) FileTree.specimen_legal specimen_ids).2.1
  intro reaches
  obtain ⟨before, key, kind, after, hl, _, ho⟩ := reaches
  exact specimen_finite _ hl (key, kind) (List.mem_append_right _ List.mem_cons_self) ho

end LunMetrics.Scrape
