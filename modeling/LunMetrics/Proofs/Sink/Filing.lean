import Mathlib.Data.List.Induction
import LunMetrics.Proofs.Metric.Names

/- Families as they are after any row of sends, whoever made the descriptors. A sample is checked against the descriptor
   that it is sent with and filed into the family of that name, which was made from another descriptor if somebody
   reuses the name. The families are written down without a sink (`Families.storing`): each holds the samples that
   were sent under its name, cut to its own label names. What is proved:

   1. whether a sample is accepted is a matter of the sample alone (`Families.check_congr`), and a sample more is one
      sample more in one family (`Families.add_splits`), which keeps the families to what is written down
      (`Families.add_storing`), so that this is what they are after any row of sends (`Families.after_eq`);
   2. an accepted sample may still not fit into its family: it does if, and only if, its descriptor has the family's
      kind and at least as many labels, so the families are kept in order exactly as long as no `Metric.Impostor` is
      accepted (`Families.inOrder_iff_no_impostor`). -/
namespace LunMetrics

/-- A descriptor that goes by a name of a namespace but does not fit the family of this name: the family has another
    kind, or more labels. -/
def Metric.Impostor (ns : Text) (d : Descriptor) : Prop :=
  ∃ own ∈ Metric.descriptors ns, own.name = d.name ∧ (d.kind ≠ own.kind ∨ d.labelNames.length < own.labelNames.length)

instance (ns : Text) (d : Descriptor) : Decidable (Metric.Impostor ns d) :=
  inferInstanceAs (Decidable (∃ own ∈ Metric.descriptors ns,
    own.name = d.name ∧ (d.kind ≠ own.kind ∨ d.labelNames.length < own.labelNames.length)))

theorem Metric.not_impostor {ns : Text} {d : Descriptor} (h : d ∈ Metric.descriptors ns) : ¬ Metric.Impostor ns d := by
  intro impostor
  obtain ⟨own, mem, name, misfit⟩ := impostor
  rw [Metric.eq_of_name mem h name] at misfit
  rcases misfit with kind | labels
  · exact kind rfl
  · exact Nat.lt_irrefl _ labels

/-! A family and the samples under its name. -/

/-- A sample as the family of a descriptor holds it, whichever descriptor it was sent with. -/
def Sample.under (d : Descriptor) (y : Sample) : FamilySample := ⟨d.name, d.labelNames.zip y.labels, y.value⟩

theorem Sample.labelNames_under_iff (d : Descriptor) (y : Sample) :
    (y.under d).labels.map (·.1) = d.labelNames ↔ d.labelNames.length ≤ y.labels.length := by
  refine ⟨?_, List.map_fst_zip⟩
  intro h
  have lengths := congrArg List.length h
  rw [List.length_map] at lengths
  have zipped : (y.under d).labels.length = min d.labelNames.length y.labels.length := List.length_zip
  omega

/-- The family of a descriptor with those samples that were sent under its name. -/
def Family.storing (ys : List Sample) (d : Descriptor) : Family :=
  { Family.bare d with samples := (ys.filter (·.descriptor.name = d.name)).map (Sample.under d) }

theorem Family.add_to_storing {ns : Text} {d : Descriptor} (h : d ∈ Metric.descriptors ns) (ys : List Sample)
    (labels : List Text) (value : Int) :
    (storing ys d).add labels value =
      { storing ys d with samples := (storing ys d).samples ++ [⟨d.name, d.labelNames.zip labels, value⟩] } := by
  have name : (storing ys d).sampleName = d.name := sampleName_bare h
  unfold add
  rw [name]
  rfl

/-- A sample that goes by the name of a descriptor is added to the family of this one. -/
theorem Family.storing_append {ns : Text} {d : Descriptor} (h : d ∈ Metric.descriptors ns) (ys : List Sample)
    (y : Sample) : storing (ys ++ [y]) d =
      if d.name = y.descriptor.name then (storing ys d).add y.labels y.value else storing ys d := by
  by_cases same : d.name = y.descriptor.name
  · rw [if_pos same, add_to_storing h]
    simp [storing, bare, Sample.under, same]
  · rw [if_neg same]
    simp [storing, Ne.symm same]

namespace Families

/-! One send. -/

/-- Where families have different names, a sample for one of them goes to this one alone. -/
theorem add_splits {fs : Families} (distinct : (fs.entries.map (·.1)).Nodup) {y : Sample}
    (known : fs.knows y.descriptor.name = true) :
    ∃ front f back, fs.entries = front ++ (y.descriptor.name, f) :: back ∧
      fs.add y = ⟨front ++ (y.descriptor.name, f.add y.labels y.value) :: back⟩ := by
  unfold knows at known
  rw [List.any_eq_true] at known
  obtain ⟨⟨name, f⟩, mem, same⟩ := known
  obtain rfl : name = y.descriptor.name := of_decide_eq_true same
  obtain ⟨front, back, split⟩ := List.append_of_mem mem
  rw [split, List.map_append, List.map_cons] at distinct
  obtain ⟨_, distinctBack, apart⟩ := List.nodup_append.1 distinct
  -- the entries before and after have other names and stay what they are
  have before : ∀ e ∈ front, e.1 ≠ y.descriptor.name := fun e he =>
    apart _ (List.mem_map_of_mem he) _ List.mem_cons_self
  have behind : ∀ e ∈ back, e.1 ≠ y.descriptor.name := by
    have absent : y.descriptor.name ∉ back.map (·.1) := (List.nodup_cons.1 distinctBack).1
    intro e he same
    apply absent
    rw [← same]
    exact List.mem_map_of_mem he
  have untouched : ∀ es : List (Text × Family), (∀ e ∈ es, e.1 ≠ y.descriptor.name) →
      es.map (fun e => if e.1 = y.descriptor.name then (e.1, e.2.add y.labels y.value) else e) = es := by
    intro es others
    exact (List.map_congr_left fun e he => if_neg (others e he)).trans (List.map_id' es)
  refine ⟨front, f, back, split, ?_⟩
  unfold add
  rw [split, List.map_append, List.map_cons, untouched front before, untouched back behind, if_pos rfl]

/-! Families of a namespace. -/

/-- Families under the names of the descriptors that they are made from. -/
def perDescriptor (ns : Text) (make : Descriptor → Family) : Families :=
  ⟨(Metric.descriptors ns).map fun d => (d.name, make d)⟩

section
variable (ns : Text) (make : Descriptor → Family)

theorem toList_perDescriptor : (perDescriptor ns make).toList = (Metric.descriptors ns).map make := by
  unfold toList perDescriptor
  rw [List.map_map]
  rfl

theorem names_perDescriptor : ((perDescriptor ns make).entries.map (·.1)).Nodup := by
  unfold perDescriptor
  rw [List.map_map]
  exact Metric.names_nodup ns

theorem frames_perDescriptor (same : ∀ d, (make d).frame = Family.bare d) :
    (perDescriptor ns make).frames = (ofNamespace ns).frames := by
  unfold frames perDescriptor ofNamespace
  rw [List.map_map, List.map_map]
  apply List.map_congr_left
  intro d _
  simp only [Function.comp_apply, same]
  rfl

end

/-! Rows of sends. -/

/-- The families of a namespace with the samples that were sent under their names. -/
def storing (ns : Text) (ys : List Sample) : Families := perDescriptor ns (Family.storing ys)

section
variable (ns : Text)

theorem frames_storing (ys : List Sample) : (storing ns ys).frames = (ofNamespace ns).frames :=
  frames_perDescriptor ns _ fun _ => rfl

theorem names_storing (ys : List Sample) : ((storing ns ys).entries.map (·.1)).Nodup := names_perDescriptor ns _

theorem add_storing (ys : List Sample) (y : Sample) : (storing ns ys).add y = storing ns (ys ++ [y]) := by
  unfold add storing perDescriptor
  rw [List.map_map]
  congr 1
  apply List.map_congr_left
  intro d hd
  rw [Function.comp_apply, Family.storing_append hd]
  split
  · rfl
  · rfl

theorem check_storing (ys : List Sample) (y : Sample) : (storing ns ys).check y = (ofNamespace ns).check y :=
  check_congr (frames_storing ns ys) y

theorem sendAll_storing (ys before : List Sample) (fine : ∀ y ∈ ys, (ofNamespace ns).check y = none) :
    Emission.sendAll send ys (storing ns before) = (storing ns (before ++ ys), .ok ()) := by
  induction ys generalizing before with
  | nil => rw [List.append_nil, Emission.sendAll]
  | cons y ys ih =>
    have rest := ih (before ++ [y]) fun z hz => fine z (List.mem_cons_of_mem y hz)
    rw [List.append_assoc, List.singleton_append] at rest
    simp only [Emission.sendAll, send, check_storing, fine y List.mem_cons_self, add_storing]
    exact rest

/-- The families of a namespace after a row of sends, whatever became of them. -/
def after (ys : List Sample) : Families := ys.foldl (fun fs y => (send y fs).1) (ofNamespace ns)

/-- Those samples of a row that are accepted. -/
def accepted (ys : List Sample) : List Sample := ys.filter fun y => ((ofNamespace ns).check y).isNone

theorem after_append (ys : List Sample) (y : Sample) : after ns (ys ++ [y]) = (send y (after ns ys)).1 := by
  unfold after
  rw [List.foldl_append]
  rfl

/-- After any row of sends the families store what was accepted. -/
theorem after_eq (ys : List Sample) : after ns ys = storing ns (accepted ns ys) := by
  induction ys using List.reverseRecOn with
  | nil => rfl
  | append_singleton ys y ih =>
    have taken : accepted ns (ys ++ [y]) = accepted ns ys ++ accepted ns [y] := List.filter_append ..
    rw [after_append, ih, taken]
    simp only [send, check_storing]
    cases hc : (ofNamespace ns).check y with
    | some fault => simp [accepted, hc]
    | none => simp [accepted, hc, add_storing]

end

/-! Families in order. -/

/-- What is expected of families after a row of sends. -/
structure InOrder (ns : Text) (ys : List Sample) : Prop where
  /-- Each sample of a family has exactly the labels of the family. -/
  labels : ∀ f ∈ (after ns ys).toList, ∀ s ∈ f.samples, s.labels.map (·.1) = f.labelNames
  /-- Each sample was sent with the kind of the family that took it. -/
  kinds : ∀ y ∈ accepted ns ys, ∀ f, (y.descriptor.name, f) ∈ (after ns ys).entries → y.kind = f.kind

theorem inOrder_iff (ns : Text) (ys : List Sample) :
    InOrder ns ys ↔ ∀ y ∈ accepted ns ys, ∀ own ∈ Metric.descriptors ns, own.name = y.descriptor.name →
      y.kind = own.kind ∧ own.labelNames.length ≤ y.labels.length := by
  refine ⟨?_, ?_⟩
  · intro h y hy own mem name
    have family : Family.storing (accepted ns ys) own ∈ (after ns ys).toList := by
      rw [after_eq, storing, toList_perDescriptor]
      exact List.mem_map_of_mem mem
    have entry : (y.descriptor.name, Family.storing (accepted ns ys) own) ∈ (after ns ys).entries := by
      rw [after_eq, ← name]
      exact List.mem_map_of_mem mem
    have stored : y.under own ∈ (Family.storing (accepted ns ys) own).samples :=
      List.mem_map_of_mem (List.mem_filter.2 ⟨hy, decide_eq_true name.symm⟩)
    exact ⟨h.kinds y hy _ entry, (y.labelNames_under_iff own).1 (h.labels _ family _ stored)⟩
  · intro h
    constructor
    case labels =>
      intro f hf s hs
      rw [after_eq, storing, toList_perDescriptor] at hf
      obtain ⟨own, mem, rfl⟩ := List.mem_map.1 hf
      obtain ⟨y, hy, rfl⟩ := List.mem_map.1 hs
      obtain ⟨hy, name⟩ := List.mem_filter.1 hy
      exact (y.labelNames_under_iff own).2 (h y hy own mem (of_decide_eq_true name).symm).2
    case kinds =>
      intro y hy f hf
      rw [after_eq] at hf
      obtain ⟨own, mem, entry⟩ := List.mem_map.1 hf
      obtain ⟨name, rfl⟩ := Prod.mk.inj entry
      exact (h y hy own mem name).1

/-- Families stay in order exactly as long as they accept no impostor. -/
theorem inOrder_iff_no_impostor (ns : Text) (ys : List Sample) :
    InOrder ns ys ↔ ∀ y ∈ accepted ns ys, ¬ Metric.Impostor ns y.descriptor := by
  rw [inOrder_iff]
  apply forall₂_congr
  intro y hy
  -- an accepted sample is what its own descriptor says
  obtain ⟨_, kind, labels⟩ := (check_eq_none_iff _ y).1 (Option.isNone_iff_eq_none.1 (List.mem_filter.1 hy).2)
  rw [kind, labels]
  unfold Metric.Impostor
  simp only [not_exists, not_and, not_or, ne_eq, not_not, not_lt]

/-- The families of a namespace, after any row of sends with whatever descriptors:

    * a send that is refused changes nothing, and whether it is refused depends on its sample alone;
    * any other one adds one sample to one family;
    * each family holds the samples accepted under its name, with as many of its labels as there are values;
    * they all have exactly the labels of their families, and were sent with the kinds of these, if and only if none
      of them was sent with an impostor, which no descriptor of the namespace is. -/
theorem in_order_unless_impostor (ns : Text) :
    (∀ ys y fault, (ofNamespace ns).check y = some fault → send y (after ns ys) = (after ns ys, some fault)) ∧
    (∀ ys y, (ofNamespace ns).check y = none → ∃ front f back,
      (after ns ys).entries = front ++ (y.descriptor.name, f) :: back ∧
      send y (after ns ys) = (⟨front ++ (y.descriptor.name, f.add y.labels y.value) :: back⟩, none)) ∧
    (∀ ys, after ns ys = storing ns (accepted ns ys)) ∧
    (∀ ys, InOrder ns ys ↔ ∀ y ∈ accepted ns ys, ¬ Metric.Impostor ns y.descriptor) ∧
    ∀ d ∈ Metric.descriptors ns, ¬ Metric.Impostor ns d := by
  refine ⟨?_, ?_, after_eq ns, inOrder_iff_no_impostor ns, fun d hd => Metric.not_impostor hd⟩
  · intro ys y fault h
    rw [after_eq]
    simp only [send, check_storing, h]
  · intro ys y h
    have known : (storing ns (accepted ns ys)).knows y.descriptor.name = true := by
      rw [← check_storing ns (accepted ns ys)] at h
      exact ((check_eq_none_iff _ y).1 h).1
    obtain ⟨front, f, back, split, added⟩ := add_splits (names_storing ns _) known
    rw [after_eq]
    refine ⟨front, f, back, split, ?_⟩
    simp only [send, check_storing, h]
    rw [added]

/-- A sample of its own descriptor, and one of a descriptor with the same name and a single label. -/
def genuine : Sample :=
  ⟨Metric.descriptor Metric.standardNamespace .rdmcp .read, .counter, 1,
    ["iqn.a".toList, "1".toList, "0".toList, "rd_mcp_0".toList, "disk".toList]⟩

def forged : Sample :=
  ⟨⟨"node_lio_rdmcp_read_total".toList, "Read.".toList, ["iqn".toList], .counter⟩, .counter, 1, ["iqn.a".toList]⟩

/-- The genuine sample and the forged one are both accepted, and the latter is then held with one label of five. -/
theorem forged_not_in_order :
    accepted Metric.standardNamespace [genuine, forged] = [genuine, forged] ∧
      InOrder Metric.standardNamespace [genuine] ∧ ¬ InOrder Metric.standardNamespace [genuine, forged] := by
  have orders := (in_order_unless_impostor Metric.standardNamespace).2.2.2.1
  refine ⟨by decide +kernel, (orders [genuine]).2 (by decide +kernel), ?_⟩
  intro h
  have impostor : Metric.Impostor Metric.standardNamespace forged.descriptor := by decide +kernel
  exact (orders [genuine, forged]).1 h forged (by decide +kernel) impostor

end Families
end LunMetrics
