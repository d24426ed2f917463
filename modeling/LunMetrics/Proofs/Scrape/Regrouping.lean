import Mathlib.Algebra.BigOperators.Group.Finset.Basic
import Mathlib.Algebra.Order.Ring.Nat
import LunMetrics.Proofs.Cycle.Attribution
import LunMetrics.Proofs.Cycle.Limits
import LunMetrics.Proofs.Scrape.Survival
import LunMetrics.Proofs.Sink.Filing

/- A scrape that does not fail regroups the samples of its cycle and loses none. The families of a namespace with given
   samples are written down without a sink (`Families.holding`): the family of a descriptor holds those samples that
   carry it. What is proved:

   1. this is how the sink files samples of the namespace (`Families.holding_eq_storing`), so the families of a scrape
      are those with the samples that a recorder is sent (`Scrape.collect_holding`);
   2. a cycle that returns a count hands over that many whole batches (`Cycle.run_whole`), each of which adds the same
      labels to the three families of its kind (`Cycle.labels_holding`), and different LUNs add different ones
      (`Cycle.labels_nodup`);
   3. since the descriptors are told apart, their families share the samples out among them
      (`Scrape.descriptors_share`);
   4. all of this together is what a scrape of a legal file tree yields (`Scrape.collect_regroups_cycle`). -/
namespace LunMetrics

/-! Samples in families. -/

/-- A sample as its family holds it: under the name of the descriptor, with its label names. -/
def Sample.inFamily (y : Sample) : FamilySample :=
  ⟨y.descriptor.name, y.descriptor.labelNames.zip y.labels, y.value⟩

theorem Emission.Emitted.carries {ns : Text} {y : Sample} (h : Emission.Emitted ns y) :
    y.descriptor ∈ Metric.descriptors ns := by
  obtain ⟨k, c, hd, _⟩ := h.fits
  rw [hd]
  exact Metric.mem_descriptors ns k c

theorem Emission.Emitted.labelled {ns : Text} {y : Sample} (h : Emission.Emitted ns y) :
    y.inFamily.labels.map (·.1) = y.descriptor.labelNames ∧ y.inFamily.labels.map (·.2) = y.labels := by
  obtain ⟨_, _, _, _, lengths⟩ := h.fits
  exact ⟨List.map_fst_zip (Nat.le_of_eq lengths.symm), List.map_snd_zip (Nat.le_of_eq lengths)⟩

/-- The family of a descriptor with those samples that carry it. -/
def Family.holding (ys : List Sample) (d : Descriptor) : Family :=
  { Family.bare d with samples := (ys.filter (·.descriptor = d)).map Sample.inFamily }

/-- Samples that carry descriptors of one namespace are sent under the name of a descriptor only if they carry it. -/
theorem Family.holding_eq_storing {ns : Text} {d : Descriptor} (h : d ∈ Metric.descriptors ns) {ys : List Sample}
    (carried : ∀ y ∈ ys, y.descriptor ∈ Metric.descriptors ns) : holding ys d = storing ys d := by
  have same : ys.filter (·.descriptor = d) = ys.filter (·.descriptor.name = d.name) := by
    apply List.filter_congr
    intro y hy
    rw [decide_eq_decide]
    exact ⟨congrArg _, Metric.eq_of_name (carried y hy) h⟩
  have filed : (ys.filter (·.descriptor = d)).map Sample.inFamily =
      (ys.filter (·.descriptor = d)).map (Sample.under d) := by
    apply List.map_congr_left
    intro y hy
    rw [← of_decide_eq_true (List.mem_filter.1 hy).2]
    rfl
  unfold holding storing
  rw [filed, same]

namespace Families

/-- The families of a namespace with the samples of each. -/
def holding (ns : Text) (ys : List Sample) : Families :=
  ⟨(Metric.descriptors ns).map fun d => (d.name, Family.holding ys d)⟩

theorem toList_holding (ns : Text) (ys : List Sample) :
    (holding ns ys).toList = (Metric.descriptors ns).map (Family.holding ys) := toList_perDescriptor ns _

theorem frames_holding (ns : Text) (ys : List Sample) : (holding ns ys).frames = (ofNamespace ns).frames :=
  frames_perDescriptor ns (Family.holding ys) fun _ => rfl

theorem holding_eq_storing {ns : Text} {ys : List Sample} (carried : ∀ y ∈ ys, y.descriptor ∈ Metric.descriptors ns) :
    holding ns ys = storing ns ys := by
  unfold holding storing perDescriptor
  congr 1
  apply List.map_congr_left
  intro d hd
  rw [Family.holding_eq_storing hd carried]

end Families

/-! The samples of a cycle. -/

namespace Cycle

def Batch.sample {σ : Type} (b : Batch σ) (ns : Text) (c : Counter) : Sample :=
  ⟨Metric.descriptor ns b.kind c, .counter, b.values.get c, b.key.exportLabels ++ b.identity.labelValues⟩

theorem length_whole {σ : Type} (bs : List (Batch σ)) (ns : Text) :
    (bs.flatMap (·.whole ns)).length = 3 * bs.length := by
  have three : ∀ b ∈ bs, (b.whole ns).length = 3 := fun _ _ => rfl
  rw [List.length_flatMap, List.map_congr_left three, List.map_const', List.sum_replicate_nat, Nat.mul_comm]

def Batch.labels {σ : Type} (b : Batch σ) : List (Text × Text) :=
  (Metric.exportLabelNames ++ b.kind.labelNames).zip (b.key.exportLabels ++ b.identity.labelValues)

section
variable {σ : Type}

theorem Batch.filter_whole (b : Batch σ) (ns : Text) (k : BackstoreKind) (c : Counter) :
    (b.whole ns).filter (·.descriptor = Metric.descriptor ns k c) = if b.kind = k then [b.sample ns c] else [] := by
  have whole : b.whole ns = [b.sample ns .read, b.sample ns .write, b.sample ns .iops] := rfl
  rw [whole]
  simp only [List.filter_cons, List.filter_nil, Batch.sample, Metric.descriptor_inj]
  by_cases hk : b.kind = k
  · cases c <;> simp [hk]
  · simp [hk]

/-- What the family of a descriptor holds of whole batches: the labels of the batches of its kind. -/
theorem labels_holding (ns : Text) (k : BackstoreKind) (c : Counter) (bs : List (Batch σ)) :
    (Family.holding (bs.flatMap (·.whole ns)) (Metric.descriptor ns k c)).samples.map (·.labels) =
      (bs.filter (·.kind = k)).map Batch.labels := by
  induction bs with
  | nil => rfl
  | cons b bs ih =>
    unfold Family.holding at ih ⊢
    rw [List.flatMap_cons, List.filter_append, List.map_append, List.map_append, ih, b.filter_whole, List.filter_cons]
    by_cases hk : b.kind = k
    · rw [if_pos hk, if_pos (decide_eq_true hk)]
      rfl
    · rw [if_neg hk, if_neg (by simp [hk])]
      rfl

/-- The labels of batches tell their LUNs. -/
theorem labels_nodup {bs : List (Batch σ)} (h : (bs.map fun b => b.key.exportLabels).Nodup) (k : BackstoreKind) :
    ((bs.filter (·.kind = k)).map Batch.labels).Nodup := by
  -- the first three are the export labels
  apply List.Nodup.of_map fun labels : List (Text × Text) => (labels.take 3).map (·.2)
  rw [List.map_map]
  exact (List.filter_sublist.map _).nodup h

theorem yielded_labels_nodup {t : FileTree} (legal : t.Legal) (r : Roots) :
    ((Walk.yielded t.sysfs r).map fun l => l.1.exportLabels).Nodup := by
  unfold Walk.yielded
  rw [Walk.value_luns, FileTree.sysfs_list]
  cases hl : t.list r.iscsi with
  | error f => exact List.nodup_nil
  | ok names =>
    unfold List.Nodup
    rw [List.pairwise_map]
    exact (Walk.targets_precedes legal r hl).imp LunKey.Precedes.ne

theorem batches_labels_nodup {t : FileTree} (legal : t.Legal) {r : Roots} {bs : List (Batch σ)}
    (among : (bs.map (·.lun)).Sublist (Walk.yielded t.sysfs r)) : (bs.map fun b => b.key.exportLabels).Nodup := by
  have walked := (among.map fun l => l.1.exportLabels).nodup (yielded_labels_nodup legal r)
  rw [List.map_map] at walked
  exact walked

/-- A cycle that returns `n` has handed over `n` whole batches. -/
theorem run_whole (st : Station σ) (x : Exporter) {s : σ} {n : Nat} (done : (run st x s).result = .ok n) :
    ∃ bs : List (Batch σ), sent st x s = bs.flatMap (·.whole x.namespacePart) ∧
      (bs.map (·.lun)).Sublist (Walk.yielded (st.sysfs s) x.roots) ∧ bs.length = n := by
  obtain ⟨bs, hbs, hb⟩ := run_handsOver st x s
  have result : (run st.observed x (s, [])).result = .ok n := by
    rw [run_observed st x s []] at done
    exact done
  rw [result] at hb
  have whole : ∀ b ∈ bs, b.taken.map (·.sample) = b.whole x.namespacePart := by
    intro b hm
    by_contra incomplete
    obtain ⟨metric, f, hf⟩ := hb.refused b hm incomplete
    cases hf
  refine ⟨bs, ?_, hb.among, ?_⟩
  · unfold sent deliveries
    rw [hbs, List.nil_append, List.map_flatMap]
    exact List.flatMap_congr whole
  · have := hb.count n rfl
    omega

end

end Cycle

namespace Scrape

open LunMetrics.Cycle

theorem flatMap_filter_perm {α β : Type} [DecidableEq β] (key : α → β) (as : List α) : ∀ ks : List β, ks.Nodup →
    (ks.flatMap fun k => as.filter (key · = k)).Perm (as.filter (key · ∈ ks))
  | [], _ => by simp
  | k :: ks, h => by
    rw [List.nodup_cons] at h
    have ih := flatMap_filter_perm key as ks h.2
    have split := List.filter_append_perm (fun a => decide (key a = k)) (as.filter (key · ∈ k :: ks))
    have first : (as.filter (key · ∈ k :: ks)).filter (key · = k) = as.filter (key · = k) := by
      rw [List.filter_filter]
      apply List.filter_congr
      intro a _
      simp +contextual
    have rest : (as.filter (key · ∈ k :: ks)).filter (fun a => !decide (key a = k)) = as.filter (key · ∈ ks) := by
      rw [List.filter_filter]
      apply List.filter_congr
      intro a _
      by_cases same : key a = k
      · simp [same, h.1]
      · simp [same]
    rw [first, rest] at split
    exact (ih.append_left _).trans split

section
variable {ns : Text} {ys : List Sample} (carried : ∀ y ∈ ys, y.descriptor ∈ Metric.descriptors ns)
include carried

theorem descriptors_share : ((Metric.descriptors ns).flatMap fun d => ys.filter (·.descriptor = d)).Perm ys := by
  have distinct : (Metric.descriptors ns).Nodup := List.Nodup.of_map _ (Metric.names_nodup ns)
  have all : ys.filter (·.descriptor ∈ Metric.descriptors ns) = ys :=
    List.filter_eq_self.2 fun y hy => decide_eq_true (carried y hy)
  have shared := flatMap_filter_perm Sample.descriptor ys _ distinct
  rw [all] at shared
  exact shared

theorem sum_lengths_holding : ((Families.holding ns ys).toList.map (·.samples.length)).sum = ys.length := by
  rw [← (descriptors_share carried).length_eq, List.length_flatMap, Families.toList_holding, List.map_map]
  congr 1
  apply List.map_congr_left
  intro d _
  exact List.length_map _

end

/-! The scrape. -/

/-- What the families of a scrape are, if `ys` are the samples of its cycle and `n` is their number of LUNs. -/
structure Regroups (x : Exporter) (ys : List Sample) (n : Nat) (families : List Family) : Prop where
  /-- They are those that are described, twelve with different names. -/
  described : families.map Family.frame = describe x
  twelve : families.length = 12
  apart : (families.map (·.name)).Nodup
  /-- Each holds the samples that carry its descriptor, in their order. -/
  holds : families = (Metric.descriptors x.namespacePart).map (Family.holding ys)
  /-- Every sample carries one of these descriptors, and its labels are all there, under different names. -/
  carried : ∀ y ∈ ys, y.descriptor ∈ Metric.descriptors x.namespacePart
  labelled : ∀ y ∈ ys, y.descriptor.labelNames.Nodup ∧ y.inFamily.labels.map (·.1) = y.descriptor.labelNames ∧
    y.inFamily.labels.map (·.2) = y.labels
  /-- The three families of a kind have the same labels in the same order, and never twice the same. -/
  aligned : ∀ k, ∃ labels : List (List (Text × Text)), labels.Nodup ∧ ∀ c,
    Family.holding ys (Metric.descriptor x.namespacePart k c) ∈ families ∧
      (Family.holding ys (Metric.descriptor x.namespacePart k c)).samples.map (·.labels) = labels
  /-- There are three samples for each LUN. -/
  total : (families.map (·.samples.length)).sum = 3 * n

section
variable {fs : Sysfs} {x : Exporter} {families : List Family}

/-- The families of a scrape that does not fail hold the samples of its cycle. -/
theorem collect_holding (done : (collect fs x).result = .ok families) :
    ∃ n, (run (Recorder.station fs) x Recorder.fresh).result = .ok n ∧
      families = (Families.holding x.namespacePart (sent (Recorder.station fs) x Recorder.fresh)).toList ∧
      ∀ y ∈ sent (Recorder.station fs) x Recorder.fresh, Emission.Emitted x.namespacePart y := by
  have emitted : ∀ y ∈ (planned fs x).samples, Emission.Emitted x.namespacePart y :=
    emitted_of_mem_planFrom (Walk.yielded fs x.roots) 0
  -- one plan is carried out at the families and at the recorder
  have still : (Station.steady fs Families.send).Still fs x.namespacePart
      fun f => f.frames = (Families.ofNamespace x.namespacePart).frames := Families.station_still fs x.namespacePart
  have recording : (Station.steady fs Recorder.send).Still fs x.namespacePart fun r => r.refusal = none :=
    Recorder.station_still fs x.namespacePart
  obtain ⟨sends, _, result⟩ := run_still_planned still rfl
  obtain ⟨_, samples, result'⟩ := run_still_planned recording (show Recorder.fresh.refusal = none from rfl)
  have same : sent (Recorder.station fs) x Recorder.fresh = (planned fs x).samples := samples
  have stored := Families.sendAll_storing x.namespacePart (planned fs x).samples [] fun y hy =>
    Families.check_emitted (emitted y hy)
  have held : (run (Families.station fs) x (Families.ofNamespace x.namespacePart)).state =
      Families.holding x.namespacePart (planned fs x).samples := by
    rw [Families.holding_eq_storing fun y hy => (emitted y hy).carries]
    exact congrArg Prod.fst (sends.symm.trans stored)
  rw [same]
  cases hr : (run (Families.station fs) x (Families.ofNamespace x.namespacePart)).result with
  | error fault =>
    rw [collect_eq_error hr] at done
    cases done
  | ok n =>
    rw [collect_eq_ok hr] at done
    cases done
    refine ⟨n, result'.trans (result.symm.trans hr), ?_, emitted⟩
    exact congrArg Families.toList held

end

/-- A scrape of a legal file tree that does not fail regroups the samples that a recorder keeps in the same cycle. -/
theorem collect_regroups_cycle {t : FileTree} (legal : t.Legal) {x : Exporter} {families : List Family}
    (done : (collect t.sysfs x).result = .ok families) :
    ∃ n, (run (Recorder.station t.sysfs) x Recorder.fresh).result = .ok n ∧
      Regroups x (run (Recorder.station t.sysfs) x Recorder.fresh).state.kept n families := by
  have kept : (run (Recorder.station t.sysfs) x Recorder.fresh).state.kept =
      sent (Recorder.station t.sysfs) x Recorder.fresh := kept_eq_sent Recorder.keeps rfl
  obtain ⟨n, ended, rfl, emitted⟩ := collect_holding done
  obtain ⟨bs, whole, among, count⟩ := run_whole _ x ended
  rw [kept]
  refine ⟨n, ended, ?_⟩
  constructor
  case described => exact map_frame_eq_describe (Families.frames_holding _ _)
  case twelve => rfl
  case apart =>
    rw [Families.toList_holding, List.map_map]
    exact Family.familyNames_nodup x.namespacePart
  case holds => exact Families.toList_holding _ _
  case carried => exact fun y hy => (emitted y hy).carries
  case labelled => exact fun y hy => ⟨Metric.labelNames_nodup (emitted y hy).carries, (emitted y hy).labelled⟩
  case aligned =>
    have luns := batches_labels_nodup legal among
    intro k
    refine ⟨(bs.filter (·.kind = k)).map Batch.labels, labels_nodup luns k, fun c => ⟨?_, ?_⟩⟩
    · rw [Families.toList_holding]
      exact List.mem_map_of_mem (Metric.mem_descriptors _ k c)
    · rw [whole]
      exact labels_holding x.namespacePart k c bs
  case total => rw [sum_lengths_holding fun y hy => (emitted y hy).carries, whole, length_whole, count]

/-- The scrape of the small tree: the three families of its disk have one sample each, with the same labels. -/
theorem specimen_regroups :
    (collect FileTree.specimen.sysfs Exporter.specimen).result.toOption.isSome = true ∧
      ∃ families n, (collect FileTree.specimen.sysfs Exporter.specimen).result = .ok families ∧
        (run (Recorder.station FileTree.specimen.sysfs) Exporter.specimen Recorder.fresh).result = .ok n ∧
        Regroups Exporter.specimen
          (run (Recorder.station FileTree.specimen.sysfs) Exporter.specimen Recorder.fresh).state.kept n families ∧
        families.map (·.samples.length) = [0, 0, 0, 0, 0, 0, 0, 0, 0, 1, 1, 1] := by
  have done : (collect FileTree.specimen.sysfs Exporter.specimen).result.toOption.isSome = true := by decide +kernel
  have lengths : (collect FileTree.specimen.sysfs Exporter.specimen).result.toOption.map
      (·.map (·.samples.length)) = some [0, 0, 0, 0, 0, 0, 0, 0, 0, 1, 1, 1] := by decide +kernel
  refine ⟨done, ?_⟩
  cases hc : (collect FileTree.specimen.sysfs Exporter.specimen).result with
  | error fault =>
    rw [hc] at done
    cases done
  | ok families =>
    rw [hc] at lengths
    obtain ⟨n, ended, regroups⟩ := collect_regroups_cycle FileTree.specimen_legal hc
    exact ⟨families, n, rfl, ended, regroups, Option.some.inj lengths⟩

end Scrape
end LunMetrics
