import LunMetrics.Proofs.Cycle.Accounting
import LunMetrics.Proofs.Cycle.Footprint

/- What a cycle comes to while the file systems stand still, told without a sink. What a LUN contributes is a matter
   of the file systems alone (`offer`), and so is the plan of a whole cycle (`planned`): the samples in the order in
   which they are sent, and the result if all of them are accepted. A sink can only cut a plan short
   (`Plan.carryOut`):

   1. a visit carries out the plan of its LUNs (`visit_planned`), and a cycle that of the walk (`run_planned`);
   2. what is handed over is what the sink accepts of the planned samples (`deliveries_planned`), and where nothing
      is refused that is all of them, with the planned result (`run_still_planned`);
   3. LUNs without samples can be left out of a plan (`planFrom_filter`), and LUNs that offer the same have the same
      plan (`planFrom_congr`), so that two file systems are compared without a sink (`run_eq_of_planned`). -/
namespace LunMetrics

def Outcome.ending {σ ε α : Type} (o : Outcome σ ε α) : σ × Except ε α := (o.state, o.result)

namespace Cycle

variable {σ : Type}

/-! Plans. -/

/-- The samples of a cycle in the order in which they are sent, and its result if all are accepted. -/
structure Plan where
  samples : List Sample
  result : Except CycleFault Nat

namespace Plan

def after (ys : List Sample) (p : Plan) : Plan := { p with samples := ys ++ p.samples }

/-- A plan at a sink, which ends at the first sample that is refused. -/
def carryOut (send : Sample → σ → σ × Option SinkFault) (p : Plan) (s : σ) : σ × Except CycleFault Nat :=
  let sent := Emission.sendAll send p.samples s
  (sent.1, sent.2.bind fun _ => p.result)

end Plan

section
variable (fs : Sysfs) (x : Exporter)

/-- What a LUN contributes: nothing, or its samples, or the fault that keeps it from being updated. -/
def offer (l : LunKey × BackstoreKind) : Except LunFault (Option (List Sample)) :=
  match (Backstore.resolve fs x.roots l.1.link l.2).value with
  | .error f => .error (.ofResolve f)
  | .ok none => .ok none
  | .ok (some i) =>
    match (Statistics.read fs x.roots l.1.iqn l.1.tpgt l.1.lun).value with
    | .error f => .error (.trouble (.stats f))
    | .ok c =>
      match Emission.values? c with
      | none => .error (.cycle .overflow)
      | some v => .ok (some (triple l.1 l.2 x.namespacePart i v))

/-- The plan of LUNs that are visited after `n` LUNs had samples. -/
def planFrom : List (LunKey × BackstoreKind) → Nat → Plan
  | [], n => ⟨[], .ok n⟩
  | l :: found, n =>
    match offer fs x l with
    | .ok none => planFrom found n
    | .ok (some ys) => (planFrom found (n + 1)).after ys
    | .error (.trouble _) => ⟨[], .ok n⟩
    | .error (.cycle f) => ⟨[], .error f⟩

/-- The plan of a cycle. -/
def planned : Plan := planFrom fs x (Walk.yielded fs x.roots) 0

end

/-! What a LUN offers, in each case. -/

section
variable {fs fs' : Sysfs} {x : Exporter} {key : LunKey} {kind : BackstoreKind}

theorem offer_unmatched (h : Unmatched fs x key kind) : offer fs x (key, kind) = .ok none := by
  unfold Unmatched at h
  simp only [offer, h]

theorem offer_stops {trouble : Trouble} (h : Stops fs x key kind trouble) :
    offer fs x (key, kind) = .error (.trouble trouble) := by
  cases h with
  | lookup f hr => simp only [offer, hr, LunFault.ofResolve]
  | stats i f hm hc =>
    unfold Matched at hm
    simp only [offer, hm, hc]

theorem offer_breaks {fault : CycleFault} (h : Breaks fs x key kind fault) :
    offer fs x (key, kind) = .error (.cycle fault) := by
  cases h with
  | deviceNumber f hr => simp only [offer, hr, LunFault.ofResolve]
  | overflow ho =>
    obtain ⟨i, c, hm, hc, hv⟩ := ho
    unfold Matched at hm
    unfold Counted at hc
    simp only [offer, hm, hc, hv]

theorem offer_ready {i : Identity} {v : Emission.Values} (h : Ready fs x key kind i v) :
    offer fs x (key, kind) = .ok (some (triple key kind x.namespacePart i v)) := by
  obtain ⟨hm, c, hc, hv⟩ := h
  unfold Matched at hm
  unfold Counted at hc
  simp only [offer, hm, hc, hv]

theorem emitted_of_offer {l : LunKey × BackstoreKind} {ys : List Sample} (h : offer fs x l = .ok (some ys)) :
    ∀ y ∈ ys, Emission.Emitted x.namespacePart y := by
  rcases fates fs x l.1 l.2 with hu | ⟨trouble, hs⟩ | ⟨fault, hb⟩ | ⟨i, v, hr⟩
  · cases h.symm.trans (offer_unmatched hu)
  · cases h.symm.trans (offer_stops hs)
  · cases h.symm.trans (offer_breaks hb)
  · cases h.symm.trans (offer_ready hr)
    intro y hy
    exact ⟨l.1, l.2, i, v, Backstore.resolve_kind hr.matched, hy⟩

theorem offer_congr (backstore : fs.AgreeOn fs' (Backstore.Asks fs x.roots key.link kind))
    (counters : fs.AgreeOn fs' (Statistics.Asks x.roots key.iqn key.tpgt key.lun)) :
    offer fs x (key, kind) = offer fs' x (key, kind) := by
  simp only [offer, Backstore.resolve_congr backstore, Statistics.read_congr counters]

end

/-! Plans of LUNs. -/

section
variable {fs fs' : Sysfs} {x : Exporter}

theorem emitted_of_mem_planFrom (found : List (LunKey × BackstoreKind)) (n : Nat) :
    ∀ y ∈ (planFrom fs x found n).samples, Emission.Emitted x.namespacePart y := by
  induction found generalizing n with
  | nil => exact fun y hy => absurd hy List.not_mem_nil
  | cons l found ih =>
    intro y hy
    simp only [planFrom] at hy
    split at hy
    · exact ih n y hy
    · next ys ho =>
      rcases List.mem_append.1 hy with hy | hy
      · exact emitted_of_offer ho y hy
      · exact ih (n + 1) y hy
    · exact absurd hy List.not_mem_nil
    · exact absurd hy List.not_mem_nil

theorem planFrom_filter (keep : LunKey × BackstoreKind → Bool) (found : List (LunKey × BackstoreKind)) (n : Nat)
    (h : ∀ l ∈ found, keep l = false → offer fs x l = .ok none) :
    planFrom fs x (found.filter keep) n = planFrom fs x found n := by
  induction found generalizing n with
  | nil => rfl
  | cons l found ih =>
    have rest := fun m => ih m fun l' hl' => h l' (List.mem_cons_of_mem l hl')
    cases hk : keep l with
    | false =>
      have nothing := h l List.mem_cons_self hk
      rw [List.filter_cons_of_neg (by simp [hk]), rest]
      simp only [planFrom, nothing]
    | true =>
      rw [List.filter_cons_of_pos hk]
      simp only [planFrom, rest]

theorem planFrom_congr (found : List (LunKey × BackstoreKind)) (n : Nat)
    (h : ∀ l ∈ found, offer fs x l = offer fs' x l) : planFrom fs x found n = planFrom fs' x found n := by
  induction found generalizing n with
  | nil => rfl
  | cons l found ih =>
    have here := h l List.mem_cons_self
    have rest := fun m => ih m fun l' hl' => h l' (List.mem_cons_of_mem l hl')
    simp only [planFrom, here, rest]

end

/-! Plans that are carried out. -/

section
variable {send : Sample → σ → σ × Option SinkFault} {s s' : σ} {ys : List Sample}

theorem sendAll_append_error {fault : CycleFault} {zs : List Sample} (ys : List Sample) (s : σ)
    (h : Emission.sendAll send ys s = (s', .error fault)) :
    Emission.sendAll send (ys ++ zs) s = (s', .error fault) := by
  induction ys generalizing s with
  | nil => cases h
  | cons y ys ih =>
    simp only [Emission.sendAll, List.cons_append] at h ⊢
    rcases hs : send y s with ⟨s₁, f⟩
    rw [hs] at h
    cases f with
    | none => exact ih s₁ h
    | some f => exact h

theorem Plan.carryOut_after (p : Plan) (h : Emission.sendAll send ys s = (s', .ok ())) :
    (p.after ys).carryOut send s = p.carryOut send s' := by
  unfold carryOut after
  rw [sendAll_append ys s h]

theorem Plan.carryOut_after_error (p : Plan) {fault : CycleFault}
    (h : Emission.sendAll send ys s = (s', .error fault)) : (p.after ys).carryOut send s = (s', .error fault) := by
  unfold carryOut after
  rw [sendAll_append_error ys s h]
  rfl

end

section
variable {fs fs' : Sysfs} {send : Sample → σ → σ × Option SinkFault} {x : Exporter}

/-- A visit carries out the plan of its LUNs. The induction is on the stops; at a LUN the case is that of the file
    systems, and where samples are ready the sink decides whether the visit goes on. -/
theorem visit_planned (is : List Item) (n : Nat) (s : σ) :
    (visit (.steady fs send) x is n s).ending = (planFrom fs x (Item.luns is) n).carryOut send s := by
  induction is generalizing n s with
  | nil => rfl
  | cons i is ih =>
    cases i with
    | note e => exact ih n s
    | lun key kind =>
      rw [luns_lun]
      rcases fates ((Station.steady fs send).sysfs s) x key kind with h | ⟨trouble, h⟩ | ⟨fault, h⟩ | ⟨i, v, h⟩
      · obtain ⟨es, _, hv⟩ := visit_unmatched is n h
        rw [planFrom, show offer fs x (key, kind) = .ok none from offer_unmatched h, hv]
        exact ih n s
      · obtain ⟨es, _, hv⟩ := visit_stops is n h
        rw [planFrom, show offer fs x (key, kind) = .error (.trouble trouble) from offer_stops h, hv]
        rfl
      · obtain ⟨es, _, hv⟩ := visit_breaks is n h
        rw [planFrom, show offer fs x (key, kind) = .error (.cycle fault) from offer_breaks h, hv]
        rfl
      · have samples : offer fs x (key, kind) = .ok (some (triple key kind x.namespacePart i v)) := offer_ready h
        rw [planFrom, samples]
        rcases hsend : Emission.sendAll send (triple key kind x.namespacePart i v) s with ⟨s', result⟩
        cases result with
        | ok u =>
          obtain ⟨es, _, hv⟩ := visit_sent is n h hsend
          rw [hv, Plan.carryOut_after _ hsend]
          exact ih (n + 1) s'
        | error fault =>
          obtain ⟨es, _, hv⟩ := visit_refused is n h hsend
          rw [hv, Plan.carryOut_after_error _ hsend]
          rfl

theorem run_planned (s : σ) : (run (.steady fs send) x s).ending = (planned fs x).carryOut send s := by
  unfold planned Walk.yielded
  cases hl : (Walk.luns fs x.roots).value with
  | error a =>
    change (Walk.luns ((Station.steady fs send).sysfs s) x.roots).value = .error a at hl
    obtain ⟨es, _, hr⟩ := run_absent hl
    rw [hr]
    rfl
  | ok found =>
    change (Walk.luns ((Station.steady fs send).sysfs s) x.roots).value = .ok found at hl
    obtain ⟨is, es, rfl, _, _, hr⟩ := run_walk hl
    rw [hr]
    exact visit_planned is 0 s

/-- What is handed over is what the sink accepts of the planned samples. -/
theorem deliveries_planned (s : σ) :
    deliveries (.steady fs send) x s = accepted send (planned fs x).samples s := by
  -- an observed station stands still too
  have observed : (run (Station.steady fs send).observed x (s, [])).state =
      (Emission.sendAll (Station.steady fs send).observed.send (planned fs x).samples (s, [])).1 :=
    congrArg Prod.fst (run_planned (s, []))
  have sends := sendAll_observed (.steady fs send) (planned fs x).samples s []
  have kept := congrArg Prod.snd (observed.trans (congrArg Prod.fst sends))
  rw [List.nil_append] at kept
  exact kept

theorem run_still_planned {inv : σ → Prop} (still : (Station.steady fs send).Still fs x.namespacePart inv) {s : σ}
    (hs : inv s) :
    Emission.sendAll send (planned fs x).samples s = ((run (.steady fs send) x s).state, .ok ()) ∧
      sent (.steady fs send) x s = (planned fs x).samples ∧
      (run (.steady fs send) x s).result = (planned fs x).result := by
  obtain ⟨s', hsend, _⟩ := sendAll_still still _ s (emitted_of_mem_planFrom (Walk.yielded fs x.roots) 0) hs
  have all : Emission.sendAll send (planned fs x).samples s = (s', .ok ()) := hsend
  have ending : (run (.steady fs send) x s).ending = (s', (planned fs x).result) := by
    rw [run_planned, Plan.carryOut, all]
    rfl
  obtain ⟨hstate, hresult⟩ := Prod.mk.inj ending
  refine ⟨?_, ?_, hresult⟩
  · rw [all, hstate]
  · unfold sent
    rw [deliveries_planned]
    exact accepted_eq_of_ok send _ s (by rw [all])

/-- File systems with one plan have the same cycles at every sink, apart from events. -/
theorem run_eq_of_planned (h : planned fs x = planned fs' x) (s : σ) :
    (run (.steady fs send) x s).ending = (run (.steady fs' send) x s).ending ∧
      deliveries (.steady fs send) x s = deliveries (.steady fs' send) x s := by
  rw [run_planned, run_planned, deliveries_planned, deliveries_planned, h]
  exact ⟨rfl, rfl⟩

end

end Cycle
end LunMetrics
