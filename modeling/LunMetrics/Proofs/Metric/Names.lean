import Mathlib.Data.List.Nodup
import LunMetrics.Proofs.Sink.Families

/- Names of metrics. Whatever the namespace, the names of its descriptors share one beginning, and what follows it tells
   kind and counter (`name_descriptor`). None of these ends is the end of another one, so a name tells the namespace,
   the kind and the counter, whatever the namespace is made of (`name_inj`), and a descriptor is known by its name
   (`eq_of_name`). All of these names end as counters' samples do, so a family's samples have the name of its descriptor
   (`Family.sampleName_bare`), and families are known by their names too (`familyName_inj`, `familyNames_nodup`). -/
namespace LunMetrics

namespace Metric

def front (ns : Text) : Text := if ns = [] then [] else ns ++ ['_']

theorem fullName_eq (ns : Text) {sub name : Text} (hs : sub ≠ []) (hn : name ≠ []) :
    fullName ns sub name = front ns ++ (sub ++ '_' :: name) := by
  unfold fullName front
  by_cases h : ns = []
  · rw [if_pos h]
    simp [h, hs, hn]
  · rw [if_neg h]
    simp [h, hs, hn]

/-- What tells the descriptors of a namespace apart. -/
def rest (k : BackstoreKind) (c : Counter) : Text := k.subsystem ++ '_' :: c.name

theorem name_descriptor (ns : Text) (k : BackstoreKind) (c : Counter) :
    (descriptor ns k c).name = front ns ++ rest k c := by
  have hs : k.subsystem ≠ [] := by cases k <;> decide
  have hn : c.name ≠ [] := by cases c <;> decide
  exact fullName_eq ns hs hn

def rests : List Text := BackstoreKind.all.flatMap fun k => Counter.all.map (rest k)

theorem rests_nodup : rests.Nodup := by decide

theorem map_name_descriptors (ns : Text) : (descriptors ns).map (·.name) = rests.map (front ns ++ ·) := by
  unfold descriptors descriptorsOf rests
  simp only [List.map_flatMap, List.map_map]
  apply List.flatMap_congr
  intro k _
  apply List.map_congr_left
  intro c _
  exact name_descriptor ns k c

theorem names_nodup (ns : Text) : ((descriptors ns).map (·.name)).Nodup := by
  rw [map_name_descriptors]
  exact List.Nodup.map (List.append_right_injective _) rests_nodup

theorem eq_of_name {ns : Text} {d d' : Descriptor} (h : d ∈ descriptors ns) (h' : d' ∈ descriptors ns)
    (same : d.name = d'.name) : d = d' := List.inj_on_of_nodup_map (names_nodup ns) h h' same

/-! Names of different namespaces. -/

theorem front_inj {ns ns' : Text} (h : front ns = front ns') : ns = ns' := by
  unfold front at h
  split at h <;> split at h
  · next empty empty' => rw [empty, empty']
  · next empty named =>
    have last : '_' ∈ ([] : Text) := by
      rw [h]
      simp
    cases last
  · next named empty =>
    have last : '_' ∈ ([] : Text) := by
      rw [← h]
      simp
    cases last
  · exact List.append_cancel_right h

/-- What follows the namespace in a name is not the end of what follows it in another one. -/
theorem eq_of_rest_suffix {k k' : BackstoreKind} {c c' : Counter} (h : rest k c <:+ rest k' c') : k = k' ∧ c = c' := by
  revert h
  cases k <;> cases k' <;> cases c <;> cases c' <;> decide

/-- A name tells namespace, kind and counter. -/
theorem name_inj {ns ns' : Text} {k k' : BackstoreKind} {c c' : Counter} :
    (descriptor ns k c).name = (descriptor ns' k' c').name ↔ ns = ns' ∧ k = k' ∧ c = c' := by
  refine ⟨?_, fun h => by rw [h.1, h.2.1, h.2.2]⟩
  intro h
  rw [name_descriptor, name_descriptor] at h
  -- both names end in what follows the namespace, so one of these ends is the end of the other
  have same : k = k' ∧ c = c' := by
    have here : rest k c <:+ front ns' ++ rest k' c' := ⟨_, h⟩
    rcases List.suffix_or_suffix_of_suffix here (List.suffix_append _ _) with longer | longer
    · exact eq_of_rest_suffix longer
    · obtain ⟨hk, hc⟩ := eq_of_rest_suffix longer
      exact ⟨hk.symm, hc.symm⟩
  rw [same.1, same.2] at h
  exact ⟨front_inj (List.append_cancel_right h), same⟩

theorem descriptor_inj (ns : Text) {k k' : BackstoreKind} {c c' : Counter} :
    descriptor ns k c = descriptor ns k' c' ↔ k = k' ∧ c = c' := by
  refine ⟨?_, fun h => by rw [h.1, h.2]⟩
  intro h
  exact (name_inj.1 (congrArg Descriptor.name h)).2

theorem labelNames_nodup {ns : Text} {d : Descriptor} (h : d ∈ descriptors ns) : d.labelNames.Nodup := by
  obtain ⟨k, c, rfl⟩ := (mem_descriptors_iff ns d).1 h
  show (exportLabelNames ++ k.labelNames).Nodup
  cases k <;> decide

end Metric

/-! Names of families. -/

namespace Family

theorem stripTotal_append (name : Text) : stripTotal (name ++ totalEnding) = name := by
  have cut : Text.after? totalEnding.reverse (name ++ totalEnding).reverse = some name.reverse := by
    rw [Text.after?_eq_some_iff, List.reverse_append]
  unfold stripTotal
  rw [cut]
  exact List.reverse_reverse name

/-- What a family drops from the name of its descriptor is put back in the names of its samples. -/
theorem nameFor_append {ns : Text} {d : Descriptor} (h : d ∈ Metric.descriptors ns) :
    nameFor d ++ totalEnding = d.name := by
  obtain ⟨k, c, rfl⟩ := (Metric.mem_descriptors_iff ns d).1 h
  obtain ⟨stem, hstem⟩ : totalEnding <:+ Metric.rest k c := by cases k <;> cases c <;> decide
  have name : (Metric.descriptor ns k c).name = (Metric.front ns ++ stem) ++ totalEnding := by
    rw [Metric.name_descriptor, ← hstem, List.append_assoc]
  have strip : nameFor (Metric.descriptor ns k c) = stripTotal (Metric.descriptor ns k c).name := rfl
  rw [strip, name, stripTotal_append]

theorem sampleName_bare {ns : Text} {d : Descriptor} (h : d ∈ Metric.descriptors ns) :
    (bare d).sampleName = d.name := by
  rw [← nameFor_append h]
  obtain ⟨k, c, rfl⟩ := (Metric.mem_descriptors_iff ns d).1 h
  rfl

theorem familyName_inj {ns ns' : Text} {k k' : BackstoreKind} {c c' : Counter} :
    nameFor (Metric.descriptor ns k c) = nameFor (Metric.descriptor ns' k' c') ↔ ns = ns' ∧ k = k' ∧ c = c' := by
  rw [← Metric.name_inj, ← nameFor_append (Metric.mem_descriptors ns k c),
    ← nameFor_append (Metric.mem_descriptors ns' k' c'), List.append_left_inj]

theorem familyNames_nodup (ns : Text) : ((Metric.descriptors ns).map nameFor).Nodup := by
  apply List.Nodup.of_map (· ++ totalEnding)
  rw [List.map_map]
  have names : (Metric.descriptors ns).map ((· ++ totalEnding) ∘ nameFor) = (Metric.descriptors ns).map (·.name) :=
    List.map_congr_left fun d hd => nameFor_append hd
  rw [names]
  exact Metric.names_nodup ns

end Family
end LunMetrics
