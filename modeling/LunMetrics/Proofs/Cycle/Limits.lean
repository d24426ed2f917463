import LunMetrics.Proofs.Cycle.Plan
import LunMetrics.Sink.SampleQueue

/- Cycles at a sink that takes a limited number of samples. Such a sink is told by its next sends alone (`Limited`): it
   accepts `k` samples, whatever they are, and refuses the next one; what it would do after that is left open. A
   recorder that refuses from the `k`-th sample on is one, and so is an empty queue of limit `k` at which no time is
   waited (`Recorder.limited`, `SampleQueue.limited`). What is proved:

   1. of a row of samples such a sink accepts the first `k`, and the next one is the one that is named
      (`accepted_limited`, `sendAll_limited`);
   2. so a cycle hands over the first `k` of the samples that it hands over where nothing is refused, and it ends as
      it does there or with the next sample refused (`limited_keeps_beginning`). -/
namespace LunMetrics

/-! Sinks with a limit. -/

namespace Emission

variable {σ : Type} {send : Sample → σ → σ × Option SinkFault} {fault : SinkFault}

/-- Whether a sink accepts the next `k` samples and refuses the one after them. -/
def Limited (send : Sample → σ → σ × Option SinkFault) (fault : SinkFault) : Nat → σ → Prop
  | 0, s => ∀ y, (send y s).2 = some fault
  | k + 1, s => ∀ y, (send y s).2 = none ∧ Limited send fault k (send y s).1

/-- Whether a list that a sink holds grows by every sample that it accepts, and by nothing else. -/
structure Keeps (send : Sample → σ → σ × Option SinkFault) (kept : σ → List Sample) : Prop where
  accepted : ∀ y s, (send y s).2 = none → kept (send y s).1 = kept s ++ [y]
  refused : ∀ y s f, (send y s).2 = some f → kept (send y s).1 = kept s

theorem kept_sendAll {kept : σ → List Sample} (keeps : Keeps send kept) (ys : List Sample) (s : σ) :
    kept (sendAll send ys s).1 = kept s ++ (Cycle.accepted send ys s).map (·.sample) := by
  induction ys generalizing s with
  | nil => simp [sendAll, Cycle.accepted]
  | cons y ys ih =>
    have taken := keeps.accepted y s
    have left := keeps.refused y s
    simp only [sendAll, Cycle.accepted]
    rcases hs : send y s with ⟨s', f⟩
    rw [hs] at taken left
    cases f with
    | none =>
      have here : kept s' = kept s ++ [y] := taken rfl
      rw [ih s', here, List.append_assoc]
      rfl
    | some f =>
      have here : kept s' = kept s := left f rfl
      rw [List.map_nil, List.append_nil]
      exact here

/-- Of a row of samples a sink with a limit accepts as many as the limit says. -/
theorem accepted_limited (ys : List Sample) (k : Nat) (s : σ) (h : Limited send fault k s) :
    (Cycle.accepted send ys s).map (·.sample) = ys.take k := by
  induction ys generalizing k s with
  | nil => exact List.take_nil.symm
  | cons y ys ih =>
    cases k with
    | zero =>
      have refused := h y
      simp only [Cycle.accepted]
      rcases hs : send y s with ⟨s', f⟩
      rw [hs] at refused
      cases refused
      rfl
    | succ k =>
      obtain ⟨taken, rest⟩ := h y
      simp only [Cycle.accepted]
      rcases hs : send y s with ⟨s', f⟩
      rw [hs] at taken rest
      cases taken
      rw [List.map_cons, List.take_succ_cons, ih k s' rest]

/-- A row within the limit is sent, and of a longer one the first sample beyond the limit is refused. -/
theorem sendAll_limited (ys : List Sample) (k : Nat) (s : σ) (h : Limited send fault k s) :
    (ys.length ≤ k → (sendAll send ys s).2 = .ok ()) ∧
      ∀ y, ys[k]? = some y → (sendAll send ys s).2 = .error (.sink y.descriptor.name fault) := by
  induction ys generalizing k s with
  | nil => exact ⟨fun _ => rfl, fun y hy => by simp at hy⟩
  | cons y ys ih =>
    cases k with
    | zero =>
      have refused := h y
      simp only [sendAll]
      rcases hs : send y s with ⟨s', f⟩
      rw [hs] at refused
      cases refused
      refine ⟨fun short => by simp at short, ?_⟩
      intro y' hy'
      cases hy'
      rfl
    | succ k =>
      obtain ⟨taken, rest⟩ := h y
      simp only [sendAll]
      rcases hs : send y s with ⟨s', f⟩
      rw [hs] at taken rest
      cases taken
      obtain ⟨fits, exceeds⟩ := ih k s' rest
      refine ⟨fun short => fits (Nat.le_of_succ_le_succ short), ?_⟩
      intro y' hy'
      exact exceeds y' hy'

end Emission

/-! The recorder and the queue. -/

namespace Recorder

theorem keeps : Emission.Keeps send kept where
  accepted y r := by
    unfold send
    split
    · split
      · intro h
        cases h
      · intro _
        rfl
    · intro _
      rfl
  refused y r f := by
    unfold send
    split
    · split
      · intro _
        rfl
      · intro h
        cases h
    · intro h
      cases h

theorem limited (message : String) (k : Nat) (done : List Sample) :
    Emission.Limited send (.refused message) k ⟨done, some (done.length + k, message)⟩ := by
  induction k generalizing done with
  | zero =>
    intro y
    simp [send]
  | succ k ih =>
    intro y
    have more : done.length + (k + 1) = (done ++ [y]).length + k := by
      rw [List.length_append, List.length_singleton]
      omega
    have room : ¬ done.length + (k + 1) ≤ done.length := by omega
    simp only [send, if_neg room]
    refine ⟨trivial, ?_⟩
    rw [more]
    exact ih (done ++ [y])

end Recorder

namespace SampleQueue

theorem keeps (timeout : Int) : Emission.Keeps (put timeout) waiting where
  accepted y q := by
    unfold put
    split
    · intro h
      cases h
    · split
      · intro h
        cases h
      · intro _
        rfl
  refused y q f := by
    unfold put
    split
    · intro _
      rfl
    · split
      · intro _
        rfl
      · intro h
        cases h

theorem limited {limit : Nat} (some_room : 1 ≤ limit) (k : Nat) (done : List Sample) (h : done.length + k = limit) :
    Emission.Limited (put 0) .queueFull k ⟨limit, done⟩ := by
  induction k generalizing done with
  | zero =>
    intro y
    have full : isFull ⟨limit, done⟩ = true := by
      simp only [isFull, Bool.and_eq_true, decide_eq_true_eq]
      omega
    simp [put, full]
  | succ k ih =>
    intro y
    have room : isFull ⟨limit, done⟩ = false := by
      simp only [isFull, Bool.and_eq_false_iff, decide_eq_false_iff_not]
      omega
    have more : (done ++ [y]).length + k = limit := by
      rw [List.length_append, List.length_singleton]
      omega
    simp only [put, room, Int.lt_irrefl, decide_false, Bool.and_false, Bool.false_eq_true, if_false]
    exact ⟨trivial, ih (done ++ [y]) more⟩

end SampleQueue

/-! The cycle. -/

namespace Cycle

/-- What is left of samples and a result at a sink that takes `k` samples: all of them if they are not more, else the
    first `k` samples and the fault that names the next one. -/
structure CutAt (k : Nat) (fault : SinkFault) (samples : List Sample) (result : Except CycleFault Nat)
    (kept : List Sample) (result' : Except CycleFault Nat) : Prop where
  whole : samples.length ≤ k → kept = samples ∧ result' = result
  cut : ∀ y, samples[k]? = some y → kept = samples.take k ∧ result' = .error (.sink y.descriptor.name fault)

section
variable {σ : Type} {fs : Sysfs} {x : Exporter} {send : Sample → σ → σ × Option SinkFault} {k : Nat}
  {fault : SinkFault} {s : σ}

/-- A sink with a limit cuts the plan of a cycle. -/
theorem planned_cutAt (limited : Emission.Limited send fault k s) :
    CutAt k fault (planned fs x).samples (planned fs x).result (sent (.steady fs send) x s)
      (run (.steady fs send) x s).result := by
  have kept : sent (.steady fs send) x s = (planned fs x).samples.take k := by
    unfold sent
    rw [deliveries_planned]
    exact Emission.accepted_limited _ k s limited
  have result : (run (.steady fs send) x s).result = ((planned fs x).carryOut send s).2 :=
    congrArg Prod.snd (run_planned s)
  obtain ⟨fits, exceeds⟩ := Emission.sendAll_limited (planned fs x).samples k s limited
  refine ⟨?_, ?_⟩
  · intro short
    rw [kept, result, Plan.carryOut, fits short, List.take_of_length_le short]
    exact ⟨rfl, rfl⟩
  · intro y hy
    rw [kept, result, Plan.carryOut, exceeds y hy]
    exact ⟨rfl, rfl⟩

theorem kept_eq_sent {kept : σ → List Sample} (keeps : Emission.Keeps send kept) (empty : kept s = []) :
    kept (run (.steady fs send) x s).state = sent (.steady fs send) x s := by
  have state : (run (.steady fs send) x s).state = ((planned fs x).carryOut send s).1 :=
    congrArg Prod.fst (run_planned s)
  rw [state, Plan.carryOut, Emission.kept_sendAll keeps, empty, List.nil_append]
  unfold sent
  rw [deliveries_planned]

end

/-- Let a cycle run where nothing is refused. At every sink that takes `k` samples, it hands over the first `k` of
    the same samples and no others, and ends in the same way if that is all of them, else with a fault that names the
    next one. So it does with a recorder that refuses from the `k`-th sample on, and with an empty queue of limit `k`
    at which no time is waited. -/
theorem limited_keeps_beginning {fs : Sysfs} {x : Exporter} {τ : Type} {free : Sample → τ → τ × Option SinkFault}
    {inv : τ → Prop} (still : (Station.steady fs free).Still fs x.namespacePart inv) {s₀ : τ} (hs : inv s₀)
    (k : Nat) :
    (∀ (σ : Type) (send : Sample → σ → σ × Option SinkFault) (fault : SinkFault) (s : σ),
      Emission.Limited send fault k s →
      CutAt k fault (sent (.steady fs free) x s₀) (run (.steady fs free) x s₀).result
        (sent (.steady fs send) x s) (run (.steady fs send) x s).result) ∧
    (∀ message, CutAt k (.refused message) (sent (.steady fs free) x s₀) (run (.steady fs free) x s₀).result
      (run (Recorder.station fs) x ⟨[], some (k, message)⟩).state.kept
      (run (Recorder.station fs) x ⟨[], some (k, message)⟩).result) ∧
    (1 ≤ k → CutAt k .queueFull (sent (.steady fs free) x s₀) (run (.steady fs free) x s₀).result
      (run (SampleQueue.station fs 0) x ⟨k, []⟩).state.waiting
      (run (SampleQueue.station fs 0) x ⟨k, []⟩).result) := by
  obtain ⟨_, samples, result⟩ := run_still_planned still hs
  rw [samples, result]
  refine ⟨?_, ?_, ?_⟩
  · intro σ send fault s limited
    exact planned_cutAt limited
  · intro message
    have limited : Emission.Limited Recorder.send (.refused message) k ⟨[], some (k, message)⟩ := by
      have h := Recorder.limited message k []
      rw [List.length_nil, Nat.zero_add] at h
      exact h
    have kept : (run (Recorder.station fs) x ⟨[], some (k, message)⟩).state.kept = _ :=
      kept_eq_sent Recorder.keeps rfl
    rw [kept]
    exact planned_cutAt limited
  · intro some_room
    have limited : Emission.Limited (SampleQueue.put 0) .queueFull k ⟨k, []⟩ :=
      SampleQueue.limited some_room k [] (Nat.zero_add k)
    have waiting : (run (SampleQueue.station fs 0) x ⟨k, []⟩).state.waiting = _ :=
      kept_eq_sent (SampleQueue.keeps 0) rfl
    rw [waiting]
    exact planned_cutAt limited

/-- The cycle over the small tree ends early and has three samples; a recorder and a queue for two of them cut it
    inside of the triple. -/
theorem specimen_cut_inside :
    (sent (Recorder.station FileTree.specimen.sysfs) Exporter.specimen Recorder.fresh).length = 3 ∧
      (run (Recorder.station FileTree.specimen.sysfs) Exporter.specimen ⟨[], some (2, "full")⟩).result =
        .error (.sink "node_lio_rdmcp_iops_total".toList (.refused "full")) ∧
      (run (SampleQueue.station FileTree.specimen.sysfs 0) Exporter.specimen ⟨2, []⟩).state.waiting =
        (sent (Recorder.station FileTree.specimen.sysfs) Exporter.specimen Recorder.fresh).take 2 ∧
      (run (SampleQueue.station FileTree.specimen.sysfs 0) Exporter.specimen ⟨2, []⟩).result =
        .error (.sink "node_lio_rdmcp_iops_total".toList .queueFull) := by
  have still : (Station.steady FileTree.specimen.sysfs Recorder.send).Still FileTree.specimen.sysfs
      Exporter.specimen.namespacePart fun r => r.refusal = none := Recorder.station_still _ _
  have third : (sent (Recorder.station FileTree.specimen.sysfs) Exporter.specimen Recorder.fresh)[2]? =
      some ⟨Metric.descriptor Metric.standardNamespace .rdmcp .iops, .counter, 12,
        Emission.labels (.rdmcp "rd_mcp_0".toList "disk".toList) (LunKey.specimen "0" "rd_mcp" "0" "disk")⟩ := by
    decide +kernel
  have fresh : Recorder.fresh.refusal = none := rfl
  obtain ⟨_, recorder, queue⟩ := limited_keeps_beginning still fresh 2
  rw [show ((2 : Nat) : Int) = 2 from rfl] at queue
  refine ⟨by decide +kernel, ?_, ?_⟩
  · exact ((recorder "full").cut _ third).2
  · exact (queue (by decide)).cut _ third

end Cycle
end LunMetrics
