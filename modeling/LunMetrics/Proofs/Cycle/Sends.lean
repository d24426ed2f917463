import LunMetrics.Proofs.Cycle.Steps

/- What a producer does to a station, whatever the station is. A producer runs a cycle, updates or emits one LUN, or
   sends one sample (`Operation`). All of these change the station by sends alone (`Station.Sends`), and they stop at
   the first sample that is refused and tell so (`Reports`):

   1. a row of samples is sent in its order, all of it or up to the first that is refused (`sendAll_inOrder`);
   2. so a row (`sendAll_sends`), an update (`updateLun_sends`) and a visit (`visit_sends`) leave a row of attempts of
      which only the last can have failed, and their result is a sink fault exactly if it did;
   3. so does every operation (`Operation.perform_sends`). -/
namespace LunMetrics

/-! Attempts. -/

/-- A sample that was sent, with the fault if it was refused. -/
structure Attempt where
  sample : Sample
  fault : Option SinkFault
  deriving DecidableEq, Repr

/-- Whether a row of attempts leads from one state of a station to another. -/
inductive Station.Sends {σ : Type} (st : Station σ) : σ → List Attempt → σ → Prop
  | none (s : σ) : Sends st s [] s
  | cons {s s' s'' : σ} {y : Sample} {f : Option SinkFault} {as : List Attempt} :
      st.send y s = (s', f) → Sends st s' as s'' → Sends st s (⟨y, f⟩ :: as) s''

theorem Station.Sends.append {σ : Type} {st : Station σ} {s s' s'' : σ} {as bs : List Attempt}
    (h : st.Sends s as s') (h' : st.Sends s' bs s'') : st.Sends s (as ++ bs) s'' := by
  induction h with
  | none s => exact h'
  | cons hs _ ih => exact .cons hs (ih h')

/-- Whether a result, of which `tells` says what refusals it tells, is a report of a row of attempts: what is followed
    by another attempt was accepted, a refusal is told with the metric's name, and none is told without one. -/
structure Reports (as : List Attempt) (tells : Text → SinkFault → Prop) : Prop where
  stops : as.Pairwise fun a _ => a.fault = none
  told : ∀ a ∈ as, ∀ f, a.fault = some f → tells a.sample.descriptor.name f
  honest : ∀ metric f, tells metric f → ∃ a ∈ as, a.fault = some f

namespace Reports

variable {as bs : List Attempt} {tells : Text → SinkFault → Prop}

theorem nil (nothing : ∀ metric f, ¬ tells metric f) : Reports [] tells where
  stops := .nil
  told _ ha := absurd ha List.not_mem_nil
  honest metric f h := absurd h (nothing metric f)

theorem refused {y : Sample} {f : SinkFault} (told : tells y.descriptor.name f)
    (only : ∀ metric g, tells metric g → g = f) : Reports [⟨y, some f⟩] tells where
  stops := List.pairwise_singleton _ _
  told a ha g hg := by
    cases List.mem_singleton.1 ha
    cases hg
    exact told
  honest metric g h := by
    rw [only metric g h]
    exact ⟨_, List.mem_singleton_self _, rfl⟩

theorem cons {a : Attempt} (accepted : a.fault = none) (h : Reports as tells) : Reports (a :: as) tells where
  stops := List.pairwise_cons.2 ⟨fun _ _ => accepted, h.stops⟩
  told b hb f hf := by
    rcases List.mem_cons.1 hb with rfl | hb
    · rw [accepted] at hf
      cases hf
    · exact h.told b hb f hf
  honest metric f ht := by
    obtain ⟨b, hb, hf⟩ := h.honest metric f ht
    exact ⟨b, List.mem_cons_of_mem a hb, hf⟩

theorem append (accepted : ∀ a ∈ as, a.fault = none) (h : Reports bs tells) : Reports (as ++ bs) tells := by
  induction as with
  | nil => exact h
  | cons a as ih => exact (ih fun b hb => accepted b (List.mem_cons_of_mem a hb)).cons (accepted a List.mem_cons_self)

theorem accepted (h : Reports as tells) (nothing : ∀ metric f, ¬ tells metric f) : ∀ a ∈ as, a.fault = none := by
  intro a ha
  cases hf : a.fault with
  | none => rfl
  | some f => exact absurd (h.told a ha f hf) (nothing _ f)

theorem congr {tells' : Text → SinkFault → Prop} (h : Reports as tells)
    (same : ∀ metric f, tells' metric f ↔ tells metric f) : Reports as tells' where
  stops := h.stops
  told a ha f hf := (same _ f).2 (h.told a ha f hf)
  honest metric f ht := h.honest metric f ((same metric f).1 ht)

end Reports

/-- The ways in which a row of samples can be sent: all of them are accepted, or one is refused after those before it
    were accepted, its metric is told, and none after it is sent. -/
inductive SentInOrder (ys : List Sample) : List Attempt → Except CycleFault Unit → Prop
  | whole : SentInOrder ys (ys.map (⟨·, none⟩)) (.ok ())
  | upTo (before : List Sample) (y : Sample) (f : SinkFault) (after : List Sample) : before ++ y :: after = ys →
      SentInOrder ys (before.map (⟨·, none⟩) ++ [⟨y, some f⟩]) (.error (.sink y.descriptor.name f))

namespace SentInOrder

variable {ys : List Sample} {as : List Attempt} {result : Except CycleFault Unit}

theorem cons (y : Sample) (h : SentInOrder ys as result) : SentInOrder (y :: ys) (⟨y, none⟩ :: as) result := by
  cases h with
  | whole => exact .whole
  | upTo before z f after row => exact .upTo (y :: before) z f after (by rw [← row, List.cons_append])

theorem reports (h : SentInOrder ys as result) : Reports as fun metric f => result = .error (.sink metric f) := by
  have accepted : ∀ row : List Sample, ∀ a ∈ row.map (Attempt.mk · none), a.fault = none := by
    intro row a ha
    obtain ⟨y, _, rfl⟩ := List.mem_map.1 ha
    rfl
  cases h with
  | whole =>
    rw [← List.append_nil (ys.map _)]
    exact Reports.append (accepted ys) (Reports.nil fun metric f h => by cases h)
  | upTo before y f after row =>
    refine Reports.append (accepted before) (Reports.refused rfl ?_)
    intro metric g h
    cases h
    rfl

end SentInOrder

/-! Parts of a cycle. -/

namespace Cycle

section
variable {σ : Type} (st : Station σ)

/-- A row of samples is sent up to the first that is refused. -/
theorem sendAll_inOrder (ys : List Sample) (s : σ) :
    ∃ as, st.Sends s as (Emission.sendAll st.send ys s).1 ∧
      SentInOrder ys as (Emission.sendAll st.send ys s).2 := by
  induction ys generalizing s with
  | nil => exact ⟨[], .none s, .whole⟩
  | cons y ys ih =>
    simp only [Emission.sendAll]
    rcases hs : st.send y s with ⟨s', f⟩
    cases f with
    | none =>
      obtain ⟨as, sends, order⟩ := ih s'
      exact ⟨⟨y, none⟩ :: as, .cons hs sends, order.cons y⟩
    | some f => exact ⟨[⟨y, some f⟩], .cons hs (.none s'), .upTo [] y f ys rfl⟩

theorem sendAll_sends (ys : List Sample) (s : σ) :
    ∃ as, st.Sends s as (Emission.sendAll st.send ys s).1 ∧
      Reports as fun metric f => (Emission.sendAll st.send ys s).2 = .error (.sink metric f) := by
  obtain ⟨as, sends, order⟩ := sendAll_inOrder st ys s
  exact ⟨as, sends, order.reports⟩

theorem emit_sends (ns : Text) (i : Identity) (key : LunKey) (c : Counters) (s : σ) :
    ∃ as, st.Sends s as (Emission.emit st.send ns i key c s).state ∧
      Reports as fun metric f => (Emission.emit st.send ns i key c s).result = .error (.sink metric f) := by
  cases hv : Emission.values? c with
  | none =>
    rw [emit_overflow st.send ns i key hv]
    exact ⟨[], .none s, Reports.nil fun metric f h => by cases h⟩
  | some v =>
    rw [emit_values st.send ns i key hv]
    exact sendAll_sends st _ s

variable (x : Exporter)

theorem updateLun_sends (key : LunKey) (kind : BackstoreKind) (s : σ) :
    ∃ as, st.Sends s as (updateLun st x key kind s).state ∧
      Reports as fun metric f => (updateLun st x key kind s).result = .error (.cycle (.sink metric f)) := by
  rcases fates (st.sysfs s) x key kind with h | ⟨trouble, h⟩ | ⟨fault, h⟩ | ⟨i, v, h⟩
  · obtain ⟨state, result⟩ := updateLun_unmatched h
    rw [state, result]
    exact ⟨[], .none s, Reports.nil fun metric f h => by cases h⟩
  · obtain ⟨state, result⟩ := updateLun_stops h
    rw [state, result]
    exact ⟨[], .none s, Reports.nil fun metric f h => by cases h⟩
  · obtain ⟨state, result⟩ := updateLun_breaks h
    rw [state, result]
    -- the fault is one of a number, not of a sink
    exact ⟨[], .none s, Reports.nil fun metric f e => by cases h <;> cases e⟩
  · obtain ⟨state, result⟩ := updateLun_ready h
    obtain ⟨as, sends, reports⟩ := sendAll_sends st (triple key kind x.namespacePart i v) s
    rw [state, result]
    refine ⟨as, sends, reports.congr fun metric f => ?_⟩
    cases (Emission.sendAll st.send (triple key kind x.namespacePart i v) s).2 <;>
      simp [handedOver, Except.mapError, Except.map]

/-- A visit sends what its LUNs have, up to the first sample that is refused. -/
theorem visit_sends (is : List Item) (n : Nat) (s : σ) :
    ∃ as, st.Sends s as (visit st x is n s).state ∧
      Reports as fun metric f => (visit st x is n s).result = .error (.sink metric f) := by
  induction is generalizing n s with
  | nil => exact ⟨[], .none s, Reports.nil fun metric f h => by cases h⟩
  | cons i is ih =>
    cases i with
    | note e => exact ih n s
    | lun key kind =>
      rcases fates (st.sysfs s) x key kind with h | ⟨trouble, h⟩ | ⟨fault, h⟩ | ⟨i, v, h⟩
      · obtain ⟨es, _, hv⟩ := visit_unmatched is n h
        rw [hv]
        exact ih n s
      · obtain ⟨es, _, hv⟩ := visit_stops is n h
        rw [hv]
        exact ⟨[], .none s, Reports.nil fun metric f h => by cases h⟩
      · obtain ⟨es, _, hv⟩ := visit_breaks is n h
        rw [hv]
        exact ⟨[], .none s, Reports.nil fun metric f e => by cases h <;> cases e⟩
      · obtain ⟨as, sends, reports⟩ := sendAll_sends st (triple key kind x.namespacePart i v) s
        rcases hsend : Emission.sendAll st.send (triple key kind x.namespacePart i v) s with ⟨s', result⟩
        rw [hsend] at sends reports
        cases result with
        | ok u =>
          -- all of the triple was accepted, and the visit goes on
          obtain ⟨es, _, hv⟩ := visit_sent is n h hsend
          obtain ⟨bs, rest, reports'⟩ := ih (n + 1) s'
          have all := reports.accepted fun metric f e => by cases e
          rw [hv]
          exact ⟨as ++ bs, sends.append rest, Reports.append all reports'⟩
        | error fault =>
          obtain ⟨es, _, hv⟩ := visit_refused is n h hsend
          rw [hv]
          refine ⟨as, sends, reports.congr fun metric f => ?_⟩
          simp

theorem run_sends (s : σ) :
    ∃ as, st.Sends s as (run st x s).state ∧
      Reports as fun metric f => (run st x s).result = .error (.sink metric f) := by
  cases hl : (Walk.luns (st.sysfs s) x.roots).value with
  | error a =>
    obtain ⟨es, _, hr⟩ := run_absent hl
    rw [hr]
    exact ⟨[], .none s, Reports.nil fun metric f h => by cases h⟩
  | ok found =>
    obtain ⟨is, es, _, _, _, hr⟩ := run_walk hl
    rw [hr]
    exact visit_sends st x is 0 s

end

end Cycle

/-! Operations. -/

/-- What a producer does: a cycle, a part of one, or a single send. -/
inductive Operation
  | cycle (x : Exporter)
  | update (x : Exporter) (key : LunKey) (kind : BackstoreKind)
  | emit (namespacePart : Text) (identity : Identity) (key : LunKey) (counters : Counters)
  | send (sample : Sample)

/-- What comes back to it. -/
inductive Answer
  | cycle (result : Except CycleFault Nat)
  | update (result : Except Cycle.LunFault Bool)
  | emit (result : Except CycleFault Unit)
  | send (fault : Option SinkFault)

/-- Whether an answer tells that a sample was refused: with the name of its metric, unless it is the answer to a single
    send, which is the fault itself. -/
def Answer.Tells (metric : Text) (f : SinkFault) : Answer → Prop
  | .cycle result => result = .error (.sink metric f)
  | .update result => result = .error (.cycle (.sink metric f))
  | .emit result => result = .error (.sink metric f)
  | .send fault => fault = some f

namespace Operation

variable {σ : Type} (st : Station σ)

def perform (s : σ) : Operation → σ × Answer
  | .cycle x => ((Cycle.run st x s).state, .cycle (Cycle.run st x s).result)
  | .update x key kind => ((Cycle.updateLun st x key kind s).state, .update (Cycle.updateLun st x key kind s).result)
  | .emit ns i key c => ((Emission.emit st.send ns i key c s).state, .emit (Emission.emit st.send ns i key c s).result)
  | .send y => ((st.send y s).1, .send (st.send y s).2)

/-- Every operation changes the station by sends alone, and tells a refusal, which is its last send. -/
theorem perform_sends (op : Operation) (s : σ) :
    ∃ as, st.Sends s as (op.perform st s).1 ∧ Reports as fun metric f => (op.perform st s).2.Tells metric f := by
  cases op with
  | cycle x => exact Cycle.run_sends st x s
  | update x key kind => exact Cycle.updateLun_sends st x key kind s
  | emit ns i key c =>
    simp only [perform, Answer.Tells]
    exact Cycle.emit_sends st ns i key c s
  | send y =>
    refine ⟨[⟨y, (st.send y s).2⟩], .cons rfl (.none _), ?_⟩
    cases hf : (st.send y s).2 with
    | none =>
      refine (Reports.nil fun metric f h => ?_).cons rfl
      have told : (st.send y s).2 = some f := h
      rw [hf] at told
      cases told
    | some f =>
      refine Reports.refused hf fun metric g h => ?_
      have told : (st.send y s).2 = some g := h
      rw [hf] at told
      cases told
      rfl

end Operation
end LunMetrics
