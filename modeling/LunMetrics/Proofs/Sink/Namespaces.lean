import LunMetrics.Proofs.Sink.Filing

/- Namespaces kept apart. A name tells the namespace that it was made for (`Metric.name_inj`), so no two metrics share a
   family and the families of one namespace know none of another. What is proved of a LUN that is emitted into families:

   1. with the descriptors of their own namespace it adds one sample to each of the three families of its kind, whatever
      was sent before (`Family.storing_samples`, `Families.emit_own`);
   2. with those of another namespace it is refused at its first sample (`Families.emit_foreign`). -/
namespace LunMetrics

/-! The samples of a LUN in a family. -/

/-- Of the samples of a LUN a family of its kind takes the one of its counter, and any other family takes none. -/
theorem Family.storing_samples (ns : Text) (i : Identity) (key : LunKey) (v : Emission.Values) (ys : List Sample)
    (k : BackstoreKind) (c : Counter) :
    storing (ys ++ Emission.samples ns i key v) (Metric.descriptor ns k c) =
      if k = i.kind then (storing ys (Metric.descriptor ns k c)).add (Emission.labels i key) (v.get c)
      else storing ys (Metric.descriptor ns k c) := by
  let sample (c : Counter) : Sample :=
    ⟨Metric.descriptor ns i.kind c, .counter, v.get c, Emission.labels i key⟩
  have oneByOne : ys ++ Emission.samples ns i key v = ys ++ [sample .read] ++ [sample .write] ++ [sample .iops] := by
    simp [Emission.samples, Emission.order, sample]
  have own := Metric.mem_descriptors ns k c
  rw [oneByOne, storing_append own, storing_append own, storing_append own]
  simp only [sample, Metric.name_inj, true_and]
  by_cases kind : k = i.kind
  · cases c <;> simp [kind]
  · simp [kind]

namespace Families

/-- The families of a namespace, one for each kind and counter. -/
def table (ns : Text) (f : BackstoreKind → Counter → Family) : Families :=
  ⟨BackstoreKind.all.flatMap fun k => Counter.all.map fun c => ((Metric.descriptor ns k c).name, f k c)⟩

theorem storing_eq_table (ns : Text) (ys : List Sample) :
    storing ns ys = table ns fun k c => Family.storing ys (Metric.descriptor ns k c) := by
  unfold storing perDescriptor table Metric.descriptors Metric.descriptorsOf
  simp only [List.map_flatMap, List.map_map]
  rfl

section
variable (ns : Text) (ys : List Sample) (i : Identity) (key : LunKey) {c : Counters} {v : Emission.Values}

theorem emit_own (finite : Emission.values? c = some v) :
    (Emission.emit send ns i key c (after ns ys)).state =
        storing ns (accepted ns ys ++ Emission.samples ns i key v) ∧
      (Emission.emit send ns i key c (after ns ys)).result = .ok () := by
  have fine : ∀ y ∈ Emission.samples ns i key v, (ofNamespace ns).check y = none := fun y hy =>
    check_emitted ⟨key, i.kind, i, v, rfl, hy⟩
  rw [Cycle.emit_values send ns i key finite, after_eq, sendAll_storing ns _ _ fine]
  exact ⟨rfl, rfl⟩

/-- Families know no metric of another namespace, and refuse its first sample. -/
theorem emit_foreign {ns' : Text} (other : ns ≠ ns') (finite : Emission.values? c = some v) :
    let name := (Metric.descriptor ns i.kind .read).name
    (Emission.emit send ns i key c (after ns' ys)).state = after ns' ys ∧
      (Emission.emit send ns i key c (after ns' ys)).result = .error (.sink name (.unknownMetric name)) := by
  intro name
  have unknown : (after ns' ys).knows name = false := by
    rw [after_eq, knows_eq, frames_storing, ← knows_eq, ← Bool.not_eq_true, knows_ofNamespace_iff]
    intro h
    obtain ⟨d, hd, same⟩ := h
    obtain ⟨k, counter, rfl⟩ := (Metric.mem_descriptors_iff ns' d).1 hd
    exact other (Metric.name_inj.1 same).1.symm
  rw [Cycle.emit_values send ns i key finite]
  simp only [Emission.samples, Emission.order, List.map_cons, Emission.sendAll, send, check]
  have first : (after ns' ys).knows (Metric.descriptor ns i.kind .read).name = false := unknown
  simp [first, name]

end

/-- The names of metrics tell namespace, kind and counter, and so do the names of their families. A LUN whose counters
    fit into doubles is emitted with the descriptors of a namespace into families that were made for the same one or
    for another one, after any row of sends:

    * for the same one everything is accepted, each of the three families of the LUN's kind gets one sample behind those
      that it has, and all others stay what they were;
    * for another one the emission fails, since the first metric is unknown there, and no family changes. -/
theorem emit_tells_namespace :
    (∀ ns ns' k k' c c',
      ((Metric.descriptor ns k c).name = (Metric.descriptor ns' k' c').name ↔ ns = ns' ∧ k = k' ∧ c = c') ∧
      (Family.nameFor (Metric.descriptor ns k c) = Family.nameFor (Metric.descriptor ns' k' c') ↔
        ns = ns' ∧ k = k' ∧ c = c')) ∧
    ∀ ns ns' ys i key c read write ops, Binary64.bytesOfUnits? c.readUnits = some read →
      Binary64.bytesOfUnits? c.writeUnits = some write → Binary64.ofInt? c.ops = some ops →
      let emitted := Emission.emit send ns i key c (after ns' ys)
      (ns = ns' → emitted.result = .ok () ∧ ∃ f g, after ns' ys = table ns' f ∧ emitted.state = table ns' g ∧
        (∀ k, k ≠ i.kind → g k = f k) ∧
        ∀ counter value, (counter, value) ∈ [(Counter.read, read), (.write, write), (.iops, ops)] →
          g i.kind counter = { f i.kind counter with
            samples := (f i.kind counter).samples ++ [⟨(Metric.descriptor ns' i.kind counter).name,
              (Metric.exportLabelNames ++ i.kind.labelNames).zip (key.exportLabels ++ i.labelValues), value⟩] }) ∧
      (ns ≠ ns' → emitted.state = after ns' ys ∧
        ∃ metric, emitted.result = .error (.sink metric (.unknownMetric metric))) := by
  refine ⟨fun _ _ _ _ _ _ => ⟨Metric.name_inj, Family.familyName_inj⟩, ?_⟩
  intro ns ns' ys i key c read write ops hread hwrite hops emitted
  have finite := (Emission.values?_eq_some_iff c ⟨read, write, ops⟩).2 ⟨hread, hwrite, hops⟩
  refine ⟨?_, ?_⟩
  · rintro rfl
    obtain ⟨state, result⟩ := emit_own ns ys i key finite
    let before (k : BackstoreKind) (counter : Counter) : Family :=
      Family.storing (accepted ns ys) (Metric.descriptor ns k counter)
    let behind (k : BackstoreKind) (counter : Counter) : Family :=
      Family.storing (accepted ns ys ++ Emission.samples ns i key ⟨read, write, ops⟩) (Metric.descriptor ns k counter)
    refine ⟨result, before, behind, ?_, state.trans (storing_eq_table ns _), ?_, ?_⟩
    · rw [after_eq, storing_eq_table]
    · intro k other
      funext counter
      exact (Family.storing_samples ns i key _ _ k counter).trans (if_neg other)
    · intro counter value own
      have added := (Family.storing_samples ns i key ⟨read, write, ops⟩ (accepted ns ys) i.kind counter).trans
        (if_pos rfl)
      rw [Family.add_to_storing (Metric.mem_descriptors ns i.kind counter)] at added
      have counted : Emission.Values.get ⟨read, write, ops⟩ counter = value := by
        simp only [List.mem_cons, Prod.mk.injEq, List.not_mem_nil, or_false] at own
        rcases own with ⟨rfl, rfl⟩ | ⟨rfl, rfl⟩ | ⟨rfl, rfl⟩ <;> rfl
      rw [counted] at added
      exact added
  · intro other
    obtain ⟨state, result⟩ := emit_foreign ns ys i key other finite
    exact ⟨state, _, result⟩

/-- What the empty namespace calls a metric is what follows the namespace in any other one, but the families of the
    one refuse a LUN of the other. -/
theorem disk_tells_namespace :
    let disk : Identity := .rdmcp "rd_mcp_0".toList "disk".toList
    let key : LunKey := ⟨"iqn.a".toList, "1".toList, "0".toList, ⟨"rd_mcp".toList, "0".toList, "disk".toList⟩⟩
    (Binary64.bytesOfUnits? 2 = some 2097152 ∧ Binary64.bytesOfUnits? 1 = some 1048576 ∧
      Binary64.ofInt? 10 = some 10) ∧
      (Emission.emit send [] disk key ⟨2, 1, 10⟩ (after [] [])).result = .ok () ∧
      (Emission.emit send [] disk key ⟨2, 1, 10⟩ (after "lio".toList [])).state = after "lio".toList [] := by
  intro disk key
  have finite : Binary64.bytesOfUnits? 2 = some 2097152 ∧ Binary64.bytesOfUnits? 1 = some 1048576 ∧
      Binary64.ofInt? 10 = some 10 := by decide +kernel
  have tells := emit_tells_namespace.2
  obtain ⟨hread, hwrite, hops⟩ := finite
  exact ⟨⟨hread, hwrite, hops⟩, ((tells [] [] [] disk key ⟨2, 1, 10⟩ _ _ _ hread hwrite hops).1 rfl).1,
    ((tells [] "lio".toList [] disk key ⟨2, 1, 10⟩ _ _ _ hread hwrite hops).2 (by decide)).1⟩

end Families
end LunMetrics
