import LunMetrics.Proofs.Cycle.Delivery

/- The integrity of a cycle during which anything may change. Every send may turn the file systems into others
   and may be refused; nothing is assumed about a station. The samples that are accepted still come in batches
   (`Batch`), one for a LUN:

   1. a batch is what the file systems tell of its LUN in one state, the one in force just before its first
      sample (`Batch.Sound`), and its samples are a beginning of the triple of the LUN;
   2. the LUNs of the batches are, in order, among those of the walk that the cycle began with, and only the
      last batch can lack samples, after a refusal (`Batches`);
   3. every visit keeps such an account (`visit_batches`), by what it does at one LUN, and so does every cycle
      (`run_handsOver`, `run_integrity`). -/
namespace LunMetrics

/-- The LUNs that a walk yields, which are none if it fails to begin. -/
def Walk.yielded (fs : Sysfs) (r : Roots) : List (LunKey × BackstoreKind) :=
  match (luns fs r).value with
  | .error _ => []
  | .ok found => found

namespace Cycle

/-! Batches. -/

/-- The samples that were accepted for one LUN, with the state that they were read in and what they were made
    of. -/
structure Batch (σ : Type) where
  state : σ
  key : LunKey
  kind : BackstoreKind
  identity : Identity
  values : Emission.Values
  taken : List (Delivery σ)

namespace Batch

variable {σ : Type}

def lun (b : Batch σ) : LunKey × BackstoreKind := (b.key, b.kind)

def whole (b : Batch σ) (ns : Text) : List Sample := triple b.key b.kind ns b.identity b.values

/-- Whether a batch has all samples of its LUN. -/
def Complete (b : Batch σ) (ns : Text) : Prop := b.taken.map (·.sample) = b.whole ns

/-- Whether a batch is made of what one state tells of its LUN, the state before the first of its samples. -/
structure Sound (b : Batch σ) (st : Station σ) (x : Exporter) : Prop where
  ready : Ready (st.sysfs b.state) x b.key b.kind b.identity b.values
  first : ∃ y ds, b.taken = ⟨b.state, y⟩ :: ds
  order : b.taken.map (·.sample) <+: b.whole x.namespacePart

end Batch

/-- The batches of the LUNs `found`, visited after `n` LUNs had samples, with the given result. -/
structure Batches {σ : Type} (st : Station σ) (x : Exporter) (found : List (LunKey × BackstoreKind)) (n : Nat)
    (result : Except CycleFault Nat) (bs : List (Batch σ)) : Prop where
  among : (bs.map (·.lun)).Sublist found
  sound : ∀ b ∈ bs, b.Sound st x
  complete : ∀ b ∈ bs.dropLast, b.Complete x.namespacePart
  refused : ∀ b ∈ bs, ¬ b.Complete x.namespacePart → ∃ metric f, result = .error (.sink metric f)
  count : ∀ m, result = .ok m → m = n + bs.length

namespace Batches

variable {σ : Type} {st : Station σ} {x : Exporter} {found : List (LunKey × BackstoreKind)} {n : Nat}
  {result : Except CycleFault Nat} {bs : List (Batch σ)}

theorem none (count : ∀ m, result = .ok m → m = n) : Batches st x found n result [] where
  among := List.nil_sublist found
  sound _ hb := absurd hb List.not_mem_nil
  complete _ hb := absurd hb List.not_mem_nil
  refused _ hb := absurd hb List.not_mem_nil
  count := count

theorem skip (h : Batches st x found n result bs) (l : LunKey × BackstoreKind) :
    Batches st x (l :: found) n result bs :=
  { h with among := h.among.cons l }

theorem cut {b : Batch σ} (sound : b.Sound st x) (metric : Text) (f : SinkFault) :
    Batches st x (b.lun :: found) n (.error (.sink metric f)) [b] where
  among := (List.nil_sublist found).cons_cons b.lun
  sound b' hb := by
    rw [List.mem_singleton.1 hb]
    exact sound
  complete _ hb := absurd hb List.not_mem_nil
  refused _ _ _ := ⟨metric, f, rfl⟩
  count m h := by cases h

theorem cons {b : Batch σ} (sound : b.Sound st x) (complete : b.Complete x.namespacePart)
    (h : Batches st x found (n + 1) result bs) : Batches st x (b.lun :: found) n result (b :: bs) where
  among := h.among.cons_cons b.lun
  sound b' hb := by
    rcases List.mem_cons.1 hb with rfl | hb
    · exact sound
    · exact h.sound b' hb
  complete b' hb := by
    cases bs with
    | nil => cases hb
    | cons c cs =>
      rw [List.dropLast_cons_cons] at hb
      rcases List.mem_cons.1 hb with rfl | hb
      · exact complete
      · exact h.complete b' hb
  refused b' hb incomplete := by
    rcases List.mem_cons.1 hb with rfl | hb
    · exact absurd complete incomplete
    · exact h.refused b' hb incomplete
  count m hm := by
    have := h.count m hm
    rw [List.length_cons]
    omega

/-- Where no sample was refused, there are three samples for a batch. -/
theorem length_taken (h : Batches st x found n result bs) (ok : ∀ metric f, result ≠ .error (.sink metric f)) :
    (bs.flatMap (·.taken)).length = 3 * bs.length := by
  have three : ∀ b ∈ bs, b.taken.length = 3 := by
    intro b hb
    have complete : b.Complete x.namespacePart := by
      by_contra incomplete
      obtain ⟨metric, f, hf⟩ := h.refused b hb incomplete
      exact ok metric f hf
    calc b.taken.length = (b.taken.map (·.sample)).length := (List.length_map _).symm
      _ = (b.whole x.namespacePart).length := by rw [complete]
      _ = 3 := rfl
  rw [List.length_flatMap, List.map_congr_left three, List.map_const', List.sum_replicate_nat, Nat.mul_comm]

end Batches

/-! Every visit. -/

section
variable {σ : Type} (st : Station σ) (x : Exporter)

theorem sound_of_accepted {key : LunKey} {kind : BackstoreKind} {i : Identity} {v : Emission.Values} {s : σ}
    {d : Delivery σ} {ds : List (Delivery σ)} (ready : Ready (st.sysfs s) x key kind i v)
    (h : accepted st.send (triple key kind x.namespacePart i v) s = d :: ds) :
    (Batch.mk s key kind i v (d :: ds)).Sound st x where
  ready := ready
  first := by
    have hd := accepted_head st.send (triple key kind x.namespacePart i v) s d
    rw [h] at hd
    refine ⟨d.sample, ds, ?_⟩
    rw [← hd rfl]
  order := by
    have hp := accepted_begins st.send (triple key kind x.namespacePart i v) s
    rw [h] at hp
    exact hp

/-- Whether an outcome leaves, after the deliveries `ds`, batches of the LUNs `found`. -/
def HandsOver (found : List (LunKey × BackstoreKind)) (n : Nat) (ds : List (Delivery σ))
    (o : Outcome (σ × List (Delivery σ)) CycleFault Nat) : Prop :=
  ∃ bs, o.state.2 = ds ++ bs.flatMap (·.taken) ∧ Batches st x found n o.result bs

theorem HandsOver.none {found : List (LunKey × BackstoreKind)} {n : Nat} {s : σ} {ds : List (Delivery σ)}
    {es : List Event} {result : Except CycleFault Nat} (count : ∀ m, result = .ok m → m = n) :
    HandsOver st x found n ds ⟨(s, ds), es, result⟩ := ⟨[], (List.append_nil ds).symm, Batches.none count⟩

/-- A LUN whose samples are ready: what is accepted of them is its batch, and if that is all of them the visit
    goes on. -/
theorem visit_ready {key : LunKey} {kind : BackstoreKind} {i : Identity} {v : Emission.Values} (is : List Item)
    (n : Nat) (s : σ) (ds : List (Delivery σ)) (h : Ready (st.observed.sysfs (s, ds)) x key kind i v)
    (rest : ∀ s' ds', HandsOver st x (Item.luns is) (n + 1) ds' (visit st.observed x is (n + 1) (s', ds'))) :
    HandsOver st x ((key, kind) :: Item.luns is) n ds (visit st.observed x (.lun key kind :: is) n (s, ds)) := by
  have hsend := sendAll_observed st (triple key kind x.namespacePart i v) s ds
  cases hr : (Emission.sendAll st.send (triple key kind x.namespacePart i v) s).2 with
  | ok u =>
    rw [hr] at hsend
    obtain ⟨es, _, hv⟩ := visit_sent is n h hsend
    obtain ⟨bs, hbs, hb⟩ := rest (Emission.sendAll st.send (triple key kind x.namespacePart i v) s).1
      (ds ++ accepted st.send (triple key kind x.namespacePart i v) s)
    have complete := accepted_eq_of_ok st.send (triple key kind x.namespacePart i v) s hr
    rw [hv]
    cases ha : accepted st.send (triple key kind x.namespacePart i v) s with
    | nil =>
      -- all three were accepted
      rw [ha] at complete
      cases complete
    | cons d taken =>
      rw [ha] at complete hbs hb
      refine ⟨Batch.mk s key kind i v (d :: taken) :: bs, ?_,
        Batches.cons (sound_of_accepted st x h ha) complete hb⟩
      rw [List.flatMap_cons, ← List.append_assoc]
      exact hbs
  | error fault =>
    rw [hr] at hsend
    obtain ⟨es, _, hv⟩ := visit_refused is n h hsend
    obtain ⟨metric, f, rfl⟩ := sendAll_fault _ _ _ _ hr
    rw [hv]
    cases ha : accepted st.send (triple key kind x.namespacePart i v) s with
    | nil =>
      -- the first one was refused: there is no batch
      rw [List.append_nil]
      apply HandsOver.none
      intro m hm
      cases hm
    | cons d taken =>
      refine ⟨[Batch.mk s key kind i v (d :: taken)], ?_, Batches.cut (sound_of_accepted st x h ha) metric f⟩
      rw [List.flatMap_singleton]

/-- A visit hands over batches of the LUNs that it visits. The induction is on the stops; at a LUN the case is
    that of the state in which the LUN is reached. -/
theorem visit_batches : ∀ (is : List Item) (n : Nat) (s : σ) (ds : List (Delivery σ)),
    HandsOver st x (Item.luns is) n ds (visit st.observed x is n (s, ds))
  | [], n, s, ds => by
    apply HandsOver.none
    intro m h
    cases h
    rfl
  | .note e :: is, n, s, ds => visit_batches is n s ds
  | .lun key kind :: is, n, s, ds => by
    rcases fates (st.observed.sysfs (s, ds)) x key kind with h | ⟨trouble, h⟩ | ⟨fault, h⟩ | ⟨i, v, h⟩
    · obtain ⟨es, _, hv⟩ := visit_unmatched is n h
      obtain ⟨bs, hbs, hb⟩ := visit_batches is n s ds
      rw [hv]
      exact ⟨bs, hbs, hb.skip (key, kind)⟩
    · obtain ⟨es, _, hv⟩ := visit_stops is n h
      rw [hv]
      apply HandsOver.none
      intro m hm
      cases hm
      rfl
    · obtain ⟨es, _, hv⟩ := visit_breaks is n h
      rw [hv]
      apply HandsOver.none
      intro m hm
      cases hm
    · exact visit_ready st x is n s ds h fun s' ds' => visit_batches is (n + 1) s' ds'

/-! Every cycle. -/

/-- A cycle hands over batches of the LUNs of the walk. -/
theorem run_handsOver (s : σ) :
    HandsOver st x (Walk.yielded (st.sysfs s) x.roots) 0 [] (run st.observed x (s, [])) := by
  unfold Walk.yielded
  cases hl : (Walk.luns (st.sysfs s) x.roots).value with
  | error a =>
    change (Walk.luns (st.observed.sysfs (s, [])) x.roots).value = .error a at hl
    obtain ⟨es, _, hr⟩ := run_absent hl
    rw [hr]
    apply HandsOver.none
    intro m h
    cases h
    rfl
  | ok found =>
    change (Walk.luns (st.observed.sysfs (s, [])) x.roots).value = .ok found at hl
    obtain ⟨is, es, rfl, _, _, hr⟩ := run_walk hl
    rw [hr]
    exact visit_batches st x is 0 s []

/-- Whatever happens to the file systems during a cycle, and whatever is refused:

    * what is handed over comes in sound batches, whose LUNs form, in order, a subsequence of the LUNs of the
      walk over the file systems of the beginning;
    * only the last batch can be incomplete, and only if the cycle ends with a refused sample;
    * a cycle that returns `n` has handed over `3 * n` samples. -/
theorem run_integrity (s : σ) :
    ∃ bs : List (Batch σ), deliveries st x s = bs.flatMap (·.taken) ∧
      (bs.map (·.lun)).Sublist (Walk.yielded (st.sysfs s) x.roots) ∧
      (∀ b ∈ bs, b.Sound st x) ∧
      (∀ b ∈ bs.dropLast, b.Complete x.namespacePart) ∧
      (∀ b ∈ bs, ¬ b.Complete x.namespacePart → ∃ metric f, (run st x s).result = .error (.sink metric f)) ∧
      ∀ n, (run st x s).result = .ok n → (deliveries st x s).length = 3 * n := by
  obtain ⟨bs, hbs, hb⟩ := run_handsOver st x s
  have same : (run st.observed x (s, [])).result = (run st x s).result := by
    rw [run_observed st x s []]
    rfl
  rw [same] at hb
  refine ⟨bs, hbs, hb.among, hb.sound, hb.complete, hb.refused, ?_⟩
  intro n hn
  have none_refused : ∀ metric f, (run st x s).result ≠ .error (.sink metric f) := by
    intro metric f h
    rw [hn] at h
    cases h
  have count := hb.count n hn
  have length : (deliveries st x s).length = 3 * bs.length := by
    unfold deliveries
    rw [hbs, List.nil_append, hb.length_taken none_refused]
  omega

end

end Cycle
end LunMetrics
