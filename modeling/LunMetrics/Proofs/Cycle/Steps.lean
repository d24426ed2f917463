import LunMetrics.Proofs.Backstore.Resolution
import LunMetrics.Proofs.Cycle.Quiet

/- What a cycle does, step by step. The answers of the file systems put a LUN into one of four cases (`fates`):
   its storage object has no counterpart (`Unmatched`), there is trouble (`Stops`), a fault that a cycle does
   not survive (`Breaks`), or its samples are ready (`Ready`). Only in the last case is anything sent, and then
   it is the triple of the LUN (`triple`), up to the first sample that is refused.

   1. What an update leaves behind in each case (`updateLun_unmatched`, `updateLun_stops`,
      `updateLun_breaks`, `updateLun_ready`);
   2. how a visit goes on or ends in each case (`visit_unmatched`, `visit_stops`, `visit_breaks`,
      `visit_sent`, `visit_refused`);
   3. what the walk contributes to a cycle (`run_absent`, `run_walk`). -/
namespace LunMetrics.Cycle

/-! Cases. -/

section
variable (fs : Sysfs) (x : Exporter) (key : LunKey) (kind : BackstoreKind)

/-- The storage object has no counterpart. -/
def Unmatched : Prop := (Backstore.resolve fs x.roots key.link kind).value = .ok none

def Matched (i : Identity) : Prop := (Backstore.resolve fs x.roots key.link kind).value = .ok (some i)

def Counted (c : Counters) : Prop := (Statistics.read fs x.roots key.iqn key.tpgt key.lun).value = .ok c

/-- The trouble at a LUN: its storage object cannot be looked up, or it can and the counters cannot be
    read. -/
inductive Stops : Trouble → Prop
  | lookup (f : LookupFault) :
      (Backstore.resolve fs x.roots key.link kind).value = .error (.lookup f) → Stops (.lookup f)
  | stats (i : Identity) (f : StatsFault) :
      Matched fs x key kind i →
      (Statistics.read fs x.roots key.iqn key.tpgt key.lun).value = .error f → Stops (.stats f)

/-- The storage object is identified and a counter is too large for a double. -/
def Overflows : Prop :=
  ∃ i c, Matched fs x key kind i ∧ Counted fs x key c ∧ Emission.values? c = none

/-- A fault that ends the cycle without a result. -/
inductive Breaks : CycleFault → Prop
  | deviceNumber (f : Text.NumeralFault) :
      (Backstore.resolve fs x.roots key.link kind).value = .error (.deviceNumber f) → Breaks (.deviceNumber f)
  | overflow : Overflows fs x key kind → Breaks .overflow

/-- The storage object is identified, and the counters are doubles. -/
structure Ready (i : Identity) (v : Emission.Values) : Prop where
  matched : Matched fs x key kind i
  counted : ∃ c, Counted fs x key c ∧ Emission.values? c = some v

/-- The three samples of a LUN: bytes read, bytes written, operations. -/
def triple (ns : Text) (i : Identity) (v : Emission.Values) : List Sample :=
  [⟨Metric.descriptor ns kind .read, .counter, v.read, key.exportLabels ++ i.labelValues⟩,
   ⟨Metric.descriptor ns kind .write, .counter, v.write, key.exportLabels ++ i.labelValues⟩,
   ⟨Metric.descriptor ns kind .iops, .counter, v.ops, key.exportLabels ++ i.labelValues⟩]

/-- Every LUN is in one of the four cases. -/
theorem fates :
    Unmatched fs x key kind ∨ (∃ trouble, Stops fs x key kind trouble) ∨
      (∃ fault, Breaks fs x key kind fault) ∨ ∃ i v, Ready fs x key kind i v := by
  -- the storage object is looked up first, then the counters are read, then they are converted
  cases hr : (Backstore.resolve fs x.roots key.link kind).value with
  | error f =>
    cases f with
    | lookup f => exact Or.inr (Or.inl ⟨_, Stops.lookup f hr⟩)
    | deviceNumber f => exact Or.inr (Or.inr (Or.inl ⟨_, Breaks.deviceNumber f hr⟩))
  | ok found =>
    cases found with
    | none => exact Or.inl hr
    | some i =>
      cases hc : (Statistics.read fs x.roots key.iqn key.tpgt key.lun).value with
      | error f => exact Or.inr (Or.inl ⟨_, Stops.stats i f hr hc⟩)
      | ok c =>
        cases hv : Emission.values? c with
        | none => exact Or.inr (Or.inr (Or.inl ⟨_, Breaks.overflow ⟨i, c, hr, hc, hv⟩⟩))
        | some v => exact Or.inr (Or.inr (Or.inr ⟨i, v, hr, c, hc, hv⟩))

variable {fs x key kind}

theorem Stops.exclusive {trouble : Trouble} (h : Stops fs x key kind trouble) :
    ¬ Unmatched fs x key kind ∧ (∀ i v, ¬ Ready fs x key kind i v) ∧ ∀ fault, ¬ Breaks fs x key kind fault := by
  -- in any other case one of the two reads would have two results
  refine ⟨?_, ?_, ?_⟩
  · intro hu
    unfold Unmatched at hu
    cases h with
    | lookup f hr => cases hr.symm.trans hu
    | stats i f hm hc => cases hm.symm.trans hu
  · intro i v hr
    obtain ⟨hm, c, hc, _⟩ := hr
    cases h with
    | lookup f hf => cases hf.symm.trans hm
    | stats j f _ hf => cases hf.symm.trans hc
  · intro fault hb
    cases hb with
    | deviceNumber g hg =>
      cases h with
      | lookup f hf => cases hf.symm.trans hg
      | stats j f hm _ => cases hm.symm.trans hg
    | overflow ho =>
      obtain ⟨i, c, hm, hc, _⟩ := ho
      cases h with
      | lookup f hf => cases hf.symm.trans hm
      | stats j f _ hf => cases hf.symm.trans hc

theorem Breaks.exclusive {fault : CycleFault} (h : Breaks fs x key kind fault) :
    ¬ Unmatched fs x key kind ∧ ∀ i v, ¬ Ready fs x key kind i v := by
  refine ⟨?_, ?_⟩
  · intro hu
    unfold Unmatched at hu
    cases h with
    | deviceNumber f hf => cases hf.symm.trans hu
    | overflow ho =>
      obtain ⟨i, c, hm, _⟩ := ho
      cases hm.symm.trans hu
  · intro i v hr
    obtain ⟨hm, c, hc, hv⟩ := hr
    cases h with
    | deviceNumber f hf => cases hf.symm.trans hm
    | overflow ho =>
      obtain ⟨j, c', _, hc', hv'⟩ := ho
      cases hc.symm.trans hc'
      rw [hv] at hv'
      cases hv'

end

/-! The update in each case. -/

theorem emit_overflow {σ : Type} (send : Sample → σ → σ × Option SinkFault) (ns : Text) (i : Identity)
    (key : LunKey) {c : Counters} (h : Emission.values? c = none) (s : σ) :
    Emission.emit send ns i key c s = ⟨s, [], .error .overflow⟩ := by
  unfold Emission.emit
  rw [h]

theorem emit_values {σ : Type} (send : Sample → σ → σ × Option SinkFault) (ns : Text) (i : Identity)
    (key : LunKey) {c : Counters} {v : Emission.Values} (h : Emission.values? c = some v) (s : σ) :
    Emission.emit send ns i key c s =
      ⟨(Emission.sendAll send (Emission.samples ns i key v) s).1,
        [.emitting i.kind v.read v.write v.ops (Emission.labels i key)],
        (Emission.sendAll send (Emission.samples ns i key v) s).2⟩ := by
  unfold Emission.emit
  rw [h]

section
variable {σ : Type} {st : Station σ} {x : Exporter} {key : LunKey} {kind : BackstoreKind} {s : σ}

/-- What is sent for a LUN is its triple. -/
theorem samples_eq_triple {fs : Sysfs} {i : Identity} {v : Emission.Values} (h : Ready fs x key kind i v) :
    Emission.samples x.namespacePart i key v = triple key kind x.namespacePart i v := by
  have hk : i.kind = kind := Backstore.resolve_kind h.matched
  subst hk
  rfl

theorem updateLun_unmatched (h : Unmatched (st.sysfs s) x key kind) :
    (updateLun st x key kind s).state = s ∧ (updateLun st x key kind s).result = .ok false := by
  unfold Unmatched at h
  simp only [updateLun, h, and_self]

theorem updateLun_stops {trouble : Trouble} (h : Stops (st.sysfs s) x key kind trouble) :
    (updateLun st x key kind s).state = s ∧ (updateLun st x key kind s).result = .error (.trouble trouble) := by
  cases h with
  | lookup f hr => simp only [updateLun, hr, LunFault.ofResolve, and_self]
  | stats i f hr hc =>
    unfold Matched at hr
    simp only [updateLun, hr, hc, and_self]

theorem updateLun_breaks {fault : CycleFault} (h : Breaks (st.sysfs s) x key kind fault) :
    (updateLun st x key kind s).state = s ∧ (updateLun st x key kind s).result = .error (.cycle fault) := by
  cases h with
  | deviceNumber f hr => simp only [updateLun, hr, LunFault.ofResolve, and_self]
  | overflow h =>
    obtain ⟨i, c, hr, hc, hv⟩ := h
    unfold Matched at hr
    unfold Counted at hc
    simp only [updateLun, hr, hc, emit_overflow st.send _ i key hv, Except.mapError, Except.map, and_self]

/-- The result of an update whose samples were handed over. -/
def handedOver (sent : Except CycleFault Unit) : Except LunFault Bool := (sent.mapError .cycle).map fun _ => true

theorem updateLun_ready {i : Identity} {v : Emission.Values} (h : Ready (st.sysfs s) x key kind i v) :
    (updateLun st x key kind s).state = (Emission.sendAll st.send (triple key kind x.namespacePart i v) s).1 ∧
      (updateLun st x key kind s).result =
        handedOver (Emission.sendAll st.send (triple key kind x.namespacePart i v) s).2 := by
  have hs := samples_eq_triple h
  obtain ⟨hr, c, hc, hv⟩ := h
  unfold Matched at hr
  unfold Counted at hc
  simp only [updateLun, hr, hc, emit_values st.send _ i key hv, hs, handedOver, and_self]

/-! The visit in each case: it goes on, or it ends. -/

variable (rest : List Item) (n : Nat)

theorem visit_unmatched (h : Unmatched (st.sysfs s) x key kind) :
    ∃ es, Event.Quiet es ∧ visit st x (.lun key kind :: rest) n s = (visit st x rest n s).after es := by
  have quiet := updateLun_quiet st x key kind s
  obtain ⟨hs, hr⟩ := updateLun_unmatched h
  refine ⟨_, quiet, ?_⟩
  simp only [visit, hs, hr]
  rfl

theorem visit_stops {trouble : Trouble} (h : Stops (st.sysfs s) x key kind trouble) :
    ∃ es, Event.Quiet es ∧
      visit st x (.lun key kind :: rest) n s = ⟨s, es ++ [.cycleAborted n trouble], .ok n⟩ := by
  have quiet := updateLun_quiet st x key kind s
  obtain ⟨hs, hr⟩ := updateLun_stops h
  refine ⟨_, quiet, ?_⟩
  simp only [visit, hs, hr]

theorem visit_breaks {fault : CycleFault} (h : Breaks (st.sysfs s) x key kind fault) :
    ∃ es, Event.Quiet es ∧ visit st x (.lun key kind :: rest) n s = ⟨s, es, .error fault⟩ := by
  have quiet := updateLun_quiet st x key kind s
  obtain ⟨hs, hr⟩ := updateLun_breaks h
  refine ⟨_, quiet, ?_⟩
  simp only [visit, hs, hr]

section
variable {i : Identity} {v : Emission.Values} {s' : σ}

theorem visit_sent (h : Ready (st.sysfs s) x key kind i v)
    (hsend : Emission.sendAll st.send (triple key kind x.namespacePart i v) s = (s', .ok ())) :
    ∃ es, Event.Quiet es ∧ visit st x (.lun key kind :: rest) n s = (visit st x rest (n + 1) s').after es := by
  have quiet := updateLun_quiet st x key kind s
  obtain ⟨hs, hr⟩ := updateLun_ready h
  rw [hsend] at hs hr
  refine ⟨_, quiet, ?_⟩
  simp only [visit, hs, hr]
  rfl

theorem visit_refused (h : Ready (st.sysfs s) x key kind i v) {fault : CycleFault}
    (hsend : Emission.sendAll st.send (triple key kind x.namespacePart i v) s = (s', .error fault)) :
    ∃ es, Event.Quiet es ∧ visit st x (.lun key kind :: rest) n s = ⟨s', es, .error fault⟩ := by
  have quiet := updateLun_quiet st x key kind s
  obtain ⟨hs, hr⟩ := updateLun_ready h
  rw [hsend] at hs hr
  refine ⟨_, quiet, ?_⟩
  simp only [visit, hs, hr]
  rfl

end

end

/-! The cycle: the walk, then the visit of its stops. -/

section
variable {σ : Type} {st : Station σ} {x : Exporter} {s : σ}

theorem run_absent {a : Absent} (h : (Walk.luns (st.sysfs s) x.roots).value = .error a) :
    ∃ es, Event.Quiet es ∧ run st x s = ⟨s, es, .ok 0⟩ := by
  have quiet := Walk.items_quiet (st.sysfs s) x.roots
  unfold Walk.luns at h
  unfold run
  cases hi : (Walk.items (st.sysfs s) x.roots).value with
  | error b =>
    have noted : Event.Quiet [Event.subsystemAbsent b] := Event.Quiet.single rfl
    refine ⟨_, quiet.append noted, ?_⟩
    simp only [hi]
  | ok is =>
    simp only [hi] at h
    cases h

/-- With an export tree all that matters is the visit, since the walk is read before it. -/
theorem run_walk {found : List (LunKey × BackstoreKind)}
    (h : (Walk.luns (st.sysfs s) x.roots).value = .ok found) :
    ∃ is es, Item.luns is = found ∧ (∀ e, Item.note e ∈ is → e.level = .debug) ∧ Event.Quiet es ∧
      run st x s = (visit st x is 0 s).after es := by
  have quiet := Walk.items_quiet (st.sysfs s) x.roots
  unfold Walk.luns at h
  unfold run
  cases hi : (Walk.items (st.sysfs s) x.roots).value with
  | error b =>
    simp only [hi] at h
    cases h
  | ok is =>
    simp only [hi] at h
    cases h
    refine ⟨is, _, rfl, ?_, quiet, by simp only [hi]⟩
    -- the stops are those of a topology that was read
    have he : (Topology.read (st.sysfs s) x.roots).value.map Item.ofTargets = .ok is := hi
    cases ht : (Topology.read (st.sysfs s) x.roots).value with
    | error b =>
      rw [ht] at he
      cases he
    | ok targets =>
      rw [ht] at he
      cases he
      exact Item.ofTargets_quiet targets

end
end LunMetrics.Cycle
