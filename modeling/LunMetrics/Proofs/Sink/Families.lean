import LunMetrics.Sink.Families
import LunMetrics.Proofs.Cycle.Accounting

/- Families as a sink. What is sent for a LUN names one of the twelve descriptors of its namespace, is a counter
   as they all are, and has a label value for each label name; so families that start from the descriptors of
   a namespace take all of it (`Families.station_still`). All that a sample changes is the samples of a family
   (`Families.frames_add`). Every descriptor has a family, whatever the namespace (`Family.ofDescriptor_eq`). -/
namespace LunMetrics

/-! Descriptors. -/

theorem Identity.length_labelValues (i : Identity) : i.labelValues.length = i.kind.labelNames.length := by
  cases i <;> rfl

namespace Metric

theorem mem_descriptors (ns : Text) (k : BackstoreKind) (c : Counter) : descriptor ns k c ∈ descriptors ns := by
  have hk : k ∈ BackstoreKind.all := by cases k <;> decide
  have hc : c ∈ Counter.all := by cases c <;> decide
  exact List.mem_flatMap.2 ⟨k, hk, List.mem_map.2 ⟨c, hc, rfl⟩⟩

theorem mem_descriptors_iff (ns : Text) (d : Descriptor) :
    d ∈ descriptors ns ↔ ∃ k c, d = descriptor ns k c := by
  refine ⟨?_, ?_⟩
  · intro h
    obtain ⟨k, _, hd⟩ := List.mem_flatMap.1 h
    obtain ⟨c, _, rfl⟩ := List.mem_map.1 hd
    exact ⟨k, c, rfl⟩
  · intro h
    obtain ⟨k, c, rfl⟩ := h
    exact mem_descriptors ns k c

theorem length_fullName (ns : Text) {sub name : Text} (hs : sub ≠ []) (hn : name ≠ []) :
    sub.length + name.length < (fullName ns sub name).length := by
  unfold fullName
  by_cases h : ns = []
  · simp only [h, hs, hn, ne_eq, not_true_eq_false, not_false_eq_true, decide_true, decide_false, List.filter_cons,
      List.filter_nil, Bool.false_eq_true, if_true, if_false, List.intercalate_cons_cons, List.intercalate_singleton,
      List.length_append, List.length_cons]
    omega
  · simp only [h, hs, hn, ne_eq, not_false_eq_true, decide_true, List.filter_cons, List.filter_nil, if_true,
      List.intercalate_cons_cons, List.intercalate_singleton, List.length_append, List.length_cons]
    omega

end Metric

/-! The family of a descriptor. -/

namespace Family

def frame (f : Family) : Family := { f with samples := [] }

theorem frame_add (f : Family) (labels : List Text) (value : Int) : (f.add labels value).frame = f.frame := rfl

theorem stripTotal_ne_nil {name : Text} (h : totalEnding.length < name.length) : stripTotal name ≠ [] := by
  unfold stripTotal
  split
  · next rest hrest =>
    have hl := congrArg List.length ((Text.after?_eq_some_iff _ _ _).1 hrest)
    rw [List.length_append, List.length_reverse, List.length_reverse] at hl
    intro he
    rw [List.reverse_eq_nil_iff.1 he, List.length_nil] at hl
    omega
  · intro he
    rw [he] at h
    cases h

theorem ofDescriptor_eq {ns : Text} {d : Descriptor} (h : d ∈ Metric.descriptors ns) :
    ofDescriptor d = .ok (bare d) := by
  obtain ⟨k, c, rfl⟩ := (Metric.mem_descriptors_iff ns d).1 h
  have hs : k.subsystem ≠ [] := by cases k <;> decide
  have hn : c.name ≠ [] := by cases c <;> decide
  have hc : totalEnding.length ≤ c.name.length := by cases c <;> decide
  have hl := Metric.length_fullName ns hs hn
  -- more is left of the name than the ending that a family drops
  have named : nameFor (Metric.descriptor ns k c) ≠ [] :=
    stripTotal_ne_nil (show totalEnding.length < (Metric.fullName ns k.subsystem c.name).length by omega)
  unfold ofDescriptor
  rw [if_neg named]

end Family

/-! Families. -/

/-- A sample that is sent for a LUN is a counter of a descriptor, with as many label values as it has label
    names. -/
theorem Emission.Emitted.fits {ns : Text} {y : Sample} (h : Emission.Emitted ns y) :
    ∃ k c, y.descriptor = Metric.descriptor ns k c ∧ y.kind = y.descriptor.kind ∧
      y.labels.length = y.descriptor.labelNames.length := by
  obtain ⟨key, _, i, v, rfl, hy⟩ := h
  have labels : (key.exportLabels ++ i.labelValues).length =
      (Metric.exportLabelNames ++ i.kind.labelNames).length := by
    rw [List.length_append, List.length_append, i.length_labelValues]
    rfl
  simp only [Cycle.triple, List.mem_cons, List.not_mem_nil, or_false] at hy
  rcases hy with rfl | rfl | rfl
  · exact ⟨i.kind, .read, rfl, rfl, labels⟩
  · exact ⟨i.kind, .write, rfl, rfl, labels⟩
  · exact ⟨i.kind, .iops, rfl, rfl, labels⟩

namespace Families

def frames (fs : Families) : List (Text × Family) := fs.entries.map fun e => (e.1, e.2.frame)

theorem frames_add (fs : Families) (y : Sample) : (fs.add y).frames = fs.frames := by
  unfold frames add
  rw [List.map_map]
  apply List.map_congr_left
  intro e _
  simp only [Function.comp]
  split
  · rw [Family.frame_add]
  · rfl

theorem knows_eq (fs : Families) (name : Text) : fs.knows name = fs.frames.any (·.1 = name) := by
  unfold knows frames
  rw [List.any_map]
  rfl

theorem knows_ofNamespace_iff (ns name : Text) :
    (ofNamespace ns).knows name = true ↔ ∃ d ∈ Metric.descriptors ns, d.name = name := by
  unfold knows ofNamespace
  rw [List.any_map, List.any_eq_true]
  simp only [Function.comp_apply, decide_eq_true_eq]

theorem check_eq_none_iff (fs : Families) (y : Sample) :
    fs.check y = none ↔ fs.knows y.descriptor.name = true ∧ y.kind = y.descriptor.kind ∧
      y.labels.length = y.descriptor.labelNames.length := by
  simp only [check]
  cases fs.knows y.descriptor.name with
  | false => simp
  | true =>
    by_cases hk : y.kind = y.descriptor.kind
    · by_cases hl : y.labels.length = y.descriptor.labelNames.length <;> simp [hk, hl]
    · simp [hk]

/-- What is wrong with a sample does not depend on the samples before it. -/
theorem check_congr {fs gs : Families} (h : fs.frames = gs.frames) (y : Sample) : fs.check y = gs.check y := by
  have known : fs.knows y.descriptor.name = gs.knows y.descriptor.name := by rw [knows_eq, knows_eq gs, h]
  simp only [check, known]

theorem check_emitted {ns : Text} {y : Sample} (h : Emission.Emitted ns y) : (ofNamespace ns).check y = none := by
  obtain ⟨k, c, hd, hkind, hlabels⟩ := h.fits
  have known : (ofNamespace ns).knows y.descriptor.name = true :=
    (knows_ofNamespace_iff ns _).2 ⟨_, Metric.mem_descriptors ns k c, by rw [hd]⟩
  exact (check_eq_none_iff _ y).2 ⟨known, hkind, hlabels⟩

/-- The families of a namespace take what is sent for LUNs, and stay families of the namespace. -/
theorem station_still (fs : Sysfs) (ns : Text) :
    (station fs).Still fs ns fun f => f.frames = (ofNamespace ns).frames where
  fixed _ _ := rfl
  takes f y hf hy := by
    have fine : f.check y = none := by rw [check_congr hf, check_emitted hy]
    refine ⟨f.add y, ?_, ?_⟩
    · simp only [station, send, fine]
    · rw [frames_add, hf]

end Families
end LunMetrics
