import LunMetrics.Proofs.Cycle.Steps

/- What a cycle hands over. The state of a station need not tell which samples were accepted, so a cycle is
   watched at the observed station (`Station.observed`), which keeps them beside the state.

   1. A station that follows another one, as far as a view of its states shows, has the same cycles
      (`run_follows`); the observed station follows the one that it observes (`observed_follows`), so that
      watching a cycle does not change it.
   2. What is accepted of a list of samples (`accepted`) is a beginning of it, and all of it if no sample is
      refused; `sendAll_observed` ties this to the observed station. -/
namespace LunMetrics

/-! Stations that follow another one. -/

/-- Whether a station does what another one does, as far as a view of its states shows. -/
structure Station.Follows {σ τ : Type} (st' : Station τ) (st : Station σ) (view : τ → σ) : Prop where
  sysfs : ∀ s, st'.sysfs s = st.sysfs (view s)
  send : ∀ y s, st.send y (view s) = (view (st'.send y s).1, (st'.send y s).2)

def Outcome.viewed {σ τ ε α : Type} (view : τ → σ) (o : Outcome τ ε α) : Outcome σ ε α :=
  ⟨view o.state, o.events, o.result⟩

namespace Cycle

section
variable {σ τ : Type} {st' : Station τ} {st : Station σ} {view : τ → σ}

theorem sendAll_follows (h : st'.Follows st view) :
    ∀ (ys : List Sample) (s : τ), Emission.sendAll st.send ys (view s) =
      (view (Emission.sendAll st'.send ys s).1, (Emission.sendAll st'.send ys s).2)
  | [], _ => rfl
  | y :: ys, s => by
    simp only [Emission.sendAll, h.send y s]
    rcases st'.send y s with ⟨s', f⟩
    cases f with
    | none => exact sendAll_follows h ys s'
    | some f => rfl

theorem emit_follows (h : st'.Follows st view) (ns : Text) (i : Identity) (key : LunKey) (c : Counters) (s : τ) :
    Emission.emit st.send ns i key c (view s) = (Emission.emit st'.send ns i key c s).viewed view := by
  cases hv : Emission.values? c with
  | none =>
    rw [emit_overflow _ ns i key hv, emit_overflow _ ns i key hv]
    rfl
  | some v =>
    rw [emit_values _ ns i key hv, emit_values _ ns i key hv, sendAll_follows h]
    rfl

theorem updateLun_follows (h : st'.Follows st view) (x : Exporter) (key : LunKey) (kind : BackstoreKind) (s : τ) :
    updateLun st x key kind (view s) = (updateLun st' x key kind s).viewed view := by
  -- both read the same answers, so they can only part where samples are sent
  simp only [updateLun, h.sysfs]
  cases (Backstore.resolve (st.sysfs (view s)) x.roots key.link kind).value with
  | error f => rfl
  | ok found =>
    cases found with
    | none => rfl
    | some i =>
      simp only
      cases (Statistics.read (st.sysfs (view s)) x.roots key.iqn key.tpgt key.lun).value with
      | error f => rfl
      | ok c =>
        simp only [emit_follows h, Outcome.viewed]

theorem visit_follows (h : st'.Follows st view) (x : Exporter) :
    ∀ (is : List Item) (n : Nat) (s : τ), visit st x is n (view s) = (visit st' x is n s).viewed view
  | [], _, _ => rfl
  | .note e :: is, n, s => by
    simp only [visit, visit_follows h x is n s]
    rfl
  | .lun key kind :: is, n, s => by
    simp only [visit, updateLun_follows h x key kind s]
    rcases updateLun st' x key kind s with ⟨s', es, result⟩
    cases result with
    | ok sent =>
      simp only [Outcome.viewed, visit_follows h x is _ s']
      rfl
    | error f =>
      cases f with
      | trouble t => rfl
      | cycle f => rfl

/-- A station that follows another one has the same cycles. -/
theorem run_follows (h : st'.Follows st view) (x : Exporter) (s : τ) :
    run st x (view s) = (run st' x s).viewed view := by
  simp only [run, h.sysfs]
  cases (Walk.items (st.sysfs (view s)) x.roots).value with
  | error a => rfl
  | ok is =>
    simp only [visit_follows h x is 0 s]
    rfl

end

end Cycle

/-! The observed station. -/

/-- An accepted sample, and the state in force just before it was sent. -/
structure Delivery (σ : Type) where
  state : σ
  sample : Sample

/-- A station that keeps what is accepted beside the state. -/
def Station.observed {σ : Type} (st : Station σ) : Station (σ × List (Delivery σ)) where
  sysfs s := st.sysfs s.1
  send y s :=
    match st.send y s.1 with
    | (s', none) => ((s', s.2 ++ [⟨s.1, y⟩]), none)
    | (s', some f) => ((s', s.2), some f)

theorem Station.observed_follows {σ : Type} (st : Station σ) : st.observed.Follows st Prod.fst where
  sysfs _ := rfl
  send y s := by
    simp only [observed]
    rcases st.send y s.1 with ⟨s', f⟩
    cases f <;> rfl

namespace Cycle

variable {σ : Type}

/-- What a cycle hands over, in order. -/
def deliveries (st : Station σ) (x : Exporter) (s : σ) : List (Delivery σ) :=
  (run st.observed x (s, [])).state.2

/-- The samples that a cycle hands over, in order. -/
def sent (st : Station σ) (x : Exporter) (s : σ) : List Sample := (deliveries st x s).map (·.sample)

theorem run_observed (st : Station σ) (x : Exporter) (s : σ) (ds : List (Delivery σ)) :
    run st x s = (run st.observed x (s, ds)).viewed Prod.fst := run_follows st.observed_follows x (s, ds)

/-! Samples sent in a row. -/

/-- What is accepted of a list of samples, up to the first that is refused. -/
def accepted (send : Sample → σ → σ × Option SinkFault) : List Sample → σ → List (Delivery σ)
  | [], _ => []
  | y :: ys, s =>
    match send y s with
    | (s', none) => ⟨s, y⟩ :: accepted send ys s'
    | (_, some _) => []

theorem sendAll_observed (st : Station σ) :
    ∀ (ys : List Sample) (s : σ) (ds : List (Delivery σ)), Emission.sendAll st.observed.send ys (s, ds) =
      (((Emission.sendAll st.send ys s).1, ds ++ accepted st.send ys s), (Emission.sendAll st.send ys s).2)
  | [], s, ds => by simp only [Emission.sendAll, accepted, List.append_nil]
  | y :: ys, s, ds => by
    simp only [Emission.sendAll, accepted, Station.observed]
    rcases st.send y s with ⟨s', f⟩
    cases f with
    | none =>
      -- the rest is sent with one more delivery kept
      have ih := sendAll_observed st ys s' (ds ++ [⟨s, y⟩])
      rw [List.append_assoc] at ih
      exact ih
    | some f => simp only [List.append_nil]

theorem accepted_begins (send : Sample → σ → σ × Option SinkFault) :
    ∀ (ys : List Sample) (s : σ), (accepted send ys s).map (·.sample) <+: ys
  | [], _ => List.nil_prefix
  | y :: ys, s => by
    simp only [accepted]
    rcases send y s with ⟨s', f⟩
    cases f with
    | none => exact (List.prefix_cons_inj y).2 (accepted_begins send ys s')
    | some f => exact List.nil_prefix

theorem accepted_eq_of_ok (send : Sample → σ → σ × Option SinkFault) :
    ∀ (ys : List Sample) (s : σ), (Emission.sendAll send ys s).2 = .ok () →
      (accepted send ys s).map (·.sample) = ys
  | [], _, _ => rfl
  | y :: ys, s, h => by
    simp only [Emission.sendAll] at h
    simp only [accepted]
    rcases hs : send y s with ⟨s', f⟩
    rw [hs] at h
    cases f with
    | none =>
      rw [List.map_cons, accepted_eq_of_ok send ys s' h]
    | some f => cases h

/-- The first sample of a row is sent in the state that the row begins in. -/
theorem accepted_head (send : Sample → σ → σ × Option SinkFault) (ys : List Sample) (s : σ) :
    ∀ d ∈ (accepted send ys s).head?, d.state = s := by
  intro d hd
  cases ys with
  | nil => cases hd
  | cons y ys =>
    simp only [accepted] at hd
    rcases hs : send y s with ⟨s', f⟩
    rw [hs] at hd
    cases f with
    | none =>
      cases hd
      rfl
    | some f => cases hd

theorem sendAll_fault (send : Sample → σ → σ × Option SinkFault) :
    ∀ (ys : List Sample) (s : σ) (fault : CycleFault), (Emission.sendAll send ys s).2 = .error fault →
      ∃ metric f, fault = .sink metric f
  | [], _, _, h => by cases h
  | y :: ys, s, fault, h => by
    simp only [Emission.sendAll] at h
    rcases hs : send y s with ⟨s', f⟩
    rw [hs] at h
    cases f with
    | none => exact sendAll_fault send ys s' fault h
    | some f =>
      cases h
      exact ⟨_, f, rfl⟩

end Cycle
end LunMetrics
