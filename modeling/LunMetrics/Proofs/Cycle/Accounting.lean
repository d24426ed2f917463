import Mathlib.Data.List.Forall2
import LunMetrics.Proofs.Cycle.Delivery
import LunMetrics.Proofs.Topology.Exports
import LunMetrics.Sink.Recorder

/- The accounts of a cycle while the file systems stand still and nothing is refused. A station of this kind is
   told by an invariant of its states (`Station.Still`). At such a station a LUN settles with no samples or with
   its triple (`Settles`), and

   1. LUNs that settle are left behind with their samples, in order, and with a count of those that are
      identified (`visit_settled`);
   2. a cycle is then told by where it ends: after the last LUN (`run_settled`), at the first trouble
      (`run_stopped`), or at the first fault that it does not survive (`run_broken`);
   3. over a legal file tree count, samples and warnings agree (`run_accounts`). -/
namespace LunMetrics

/-! Stations that stand still. -/

/-- Whether a sample is one that is sent for some LUN. -/
def Emission.Emitted (ns : Text) (y : Sample) : Prop :=
  ∃ key kind i v, Identity.kind i = kind ∧ y ∈ Cycle.triple key kind ns i v

/-- Whether a station, as long as an invariant holds, gives the answers of `fs` and accepts what is sent for
    LUNs. -/
structure Station.Still {σ : Type} (st : Station σ) (fs : Sysfs) (ns : Text) (inv : σ → Prop) : Prop where
  fixed : ∀ s, inv s → st.sysfs s = fs
  takes : ∀ s y, inv s → Emission.Emitted ns y → ∃ s', st.send y s = (s', none) ∧ inv s'

theorem Recorder.station_still (fs : Sysfs) (ns : Text) :
    (Recorder.station fs).Still fs ns fun r => r.refusal = none where
  fixed _ _ := rfl
  takes r y hr _ := by
    refine ⟨{ r with kept := r.kept ++ [y] }, ?_, hr⟩
    simp only [station, send, hr]

theorem Station.Still.observed {σ : Type} {st : Station σ} {fs : Sysfs} {ns : Text} {inv : σ → Prop}
    (still : st.Still fs ns inv) : st.observed.Still fs ns fun s => inv s.1 where
  fixed s hs := still.fixed s.1 hs
  takes s y hs hy := by
    obtain ⟨s', hsend, hs'⟩ := still.takes s.1 y hs hy
    refine ⟨(s', s.2 ++ [⟨s.1, y⟩]), ?_, hs'⟩
    simp only [Station.observed, hsend]

namespace Cycle

section
variable (fs : Sysfs) (x : Exporter)

/-- Whether the storage object of a LUN is identified. -/
def isMatched (l : LunKey × BackstoreKind) : Bool :=
  match (Backstore.resolve fs x.roots l.1.link l.2).value with
  | .ok (some _) => true
  | _ => false

/-- A LUN settles with no samples if its storage object has no counterpart, and with its triple if they are
    ready. -/
inductive Settles : LunKey × BackstoreKind → List Sample → Prop
  | unmatched {key : LunKey} {kind : BackstoreKind} : Unmatched fs x key kind → Settles (key, kind) []
  | ready {key : LunKey} {kind : BackstoreKind} {i : Identity} {v : Emission.Values} :
      Ready fs x key kind i v → Settles (key, kind) (triple key kind x.namespacePart i v)

/-- Whether there is trouble at a LUN. -/
def Fails (l : LunKey × BackstoreKind) : Prop := ∃ trouble, Stops fs x l.1 l.2 trouble

end

section
variable {σ : Type} {fs : Sysfs} {x : Exporter}

theorem isMatched_of_unmatched {key : LunKey} {kind : BackstoreKind} (h : Unmatched fs x key kind) :
    isMatched fs x (key, kind) = false := by
  unfold Unmatched at h
  simp only [isMatched, h]

theorem isMatched_of_ready {key : LunKey} {kind : BackstoreKind} {i : Identity} {v : Emission.Values}
    (h : Ready fs x key kind i v) : isMatched fs x (key, kind) = true := by
  have hm := h.matched
  unfold Matched at hm
  simp only [isMatched, hm]

/-! Samples that are all accepted. -/

theorem sendAll_append {send : Sample → σ → σ × Option SinkFault} {s' : σ} {zs : List Sample} :
    ∀ (ys : List Sample) (s : σ), Emission.sendAll send ys s = (s', .ok ()) →
      Emission.sendAll send (ys ++ zs) s = Emission.sendAll send zs s'
  | [], s, h => by
    cases h
    rfl
  | y :: ys, s, h => by
    simp only [Emission.sendAll, List.cons_append] at h ⊢
    rcases hs : send y s with ⟨s₁, f⟩
    rw [hs] at h
    cases f with
    | none => exact sendAll_append ys s₁ h
    | some f => cases h

variable {st : Station σ} {inv : σ → Prop}

theorem sendAll_still {ns : Text} (still : st.Still fs ns inv) :
    ∀ (ys : List Sample) (s : σ), (∀ y ∈ ys, Emission.Emitted ns y) → inv s →
      ∃ s', Emission.sendAll st.send ys s = (s', .ok ()) ∧ inv s'
  | [], s, _, hs => ⟨s, rfl, hs⟩
  | y :: ys, s, hy, hs => by
    obtain ⟨s₁, hsend, hs₁⟩ := still.takes s y hs (hy y List.mem_cons_self)
    obtain ⟨s', hrest, hs'⟩ := sendAll_still still ys s₁ (fun z hz => hy z (List.mem_cons_of_mem y hz)) hs₁
    refine ⟨s', ?_, hs'⟩
    simp only [Emission.sendAll, hsend]
    exact hrest

/-! LUNs that settle. -/

theorem luns_lun (key : LunKey) (kind : BackstoreKind) (is : List Item) :
    Item.luns (.lun key kind :: is) = (key, kind) :: Item.luns is := rfl

theorem luns_note (e : Event) (is : List Item) : Item.luns (.note e :: is) = Item.luns is := rfl

/-- Where all LUNs of the first stops settle, the visit goes on after them, with their samples sent and counted.
    The induction is on these stops, the invariant is the one of the station. -/
theorem visit_settled (still : st.Still fs x.namespacePart inv) (after : List Item) :
    ∀ (before : List Item) (chunks : List (List Sample)), (∀ e, .note e ∈ before → e.level = .debug) →
      List.Forall₂ (Settles fs x) (Item.luns before) chunks → ∀ (n : Nat) (s : σ), inv s →
        ∃ es s', Event.Quiet es ∧ Emission.sendAll st.send chunks.flatten s = (s', .ok ()) ∧ inv s' ∧
          visit st x (before ++ after) n s =
            (visit st x after (n + (Item.luns before).countP (isMatched fs x)) s').after es
  | [], chunks, _, h, n, s, hs => by
    cases h
    exact ⟨[], s, Event.Quiet.nil, rfl, hs, rfl⟩
  | .note e :: before, chunks, quiet, h, n, s, hs => by
    obtain ⟨es, s', hes, hsend, hs', hv⟩ := visit_settled still after before chunks
      (fun e' he' => quiet e' (List.mem_cons_of_mem _ he')) h n s hs
    refine ⟨[e] ++ es, s', (Event.Quiet.single (quiet e List.mem_cons_self)).append hes, hsend, hs', ?_⟩
    rw [luns_note]
    simp only [List.cons_append, visit, hv]
    rfl
  | .lun key kind :: before, chunks, quiet, h, n, s, hs => by
    rw [luns_lun] at h ⊢
    have hfs := still.fixed s hs
    have quiet' : ∀ e, .note e ∈ before → e.level = .debug := fun e he => quiet e (List.mem_cons_of_mem _ he)
    cases h with
    | cons first rest =>
      cases first with
      | unmatched hu =>
        -- what was sent so far has not changed the answers
        have hu' : Unmatched (st.sysfs s) x key kind := by rw [hfs]; exact hu
        obtain ⟨es₁, hes₁, hv₁⟩ := visit_unmatched (before ++ after) n hu'
        obtain ⟨es, s', hes, hsend, hs', hv⟩ := visit_settled still after before _ quiet' rest n s hs
        refine ⟨es₁ ++ es, s', hes₁.append hes, hsend, hs', ?_⟩
        rw [List.countP_cons_of_neg (by simp [isMatched_of_unmatched hu]), List.cons_append, hv₁, hv]
        simp only [Outcome.after, List.append_assoc]
      | @ready _ _ i v hr =>
        have hr' : Ready (st.sysfs s) x key kind i v := by rw [hfs]; exact hr
        have emitted : ∀ y ∈ triple key kind x.namespacePart i v, Emission.Emitted x.namespacePart y :=
          fun y hy => ⟨key, kind, i, v, Backstore.resolve_kind hr.matched, hy⟩
        -- the samples of this LUN, then those of the others from the state after them
        obtain ⟨s₁, hsend₁, hs₁⟩ := sendAll_still still _ s emitted hs
        obtain ⟨es₁, hes₁, hv₁⟩ := visit_sent (before ++ after) n hr' hsend₁
        obtain ⟨es, s', hes, hsend, hs', hv⟩ := visit_settled still after before _ quiet' rest (n + 1) s₁ hs₁
        refine ⟨es₁ ++ es, s', hes₁.append hes, ?_, hs', ?_⟩
        · rw [List.flatten_cons, sendAll_append _ s hsend₁]
          exact hsend
        · rw [List.countP_cons_of_pos (isMatched_of_ready hr), List.cons_append, hv₁, hv]
          simp only [Outcome.after, List.append_assoc, Nat.add_assoc, Nat.add_comm 1]

theorem luns_split {key : LunKey} {kind : BackstoreKind} {after : List (LunKey × BackstoreKind)} :
    ∀ (is : List Item) (before : List (LunKey × BackstoreKind)),
      Item.luns is = before ++ (key, kind) :: after →
        ∃ is₁ is₂, is = is₁ ++ .lun key kind :: is₂ ∧ Item.luns is₁ = before
  | [], before, h => by
    have := congrArg List.length h
    rw [List.length_append, List.length_cons] at this
    have none : (Item.luns []).length = 0 := rfl
    omega
  | .note e :: is, before, h => by
    obtain ⟨is₁, is₂, rfl, hl⟩ := luns_split is before h
    exact ⟨.note e :: is₁, is₂, rfl, hl⟩
  | .lun key' kind' :: is, [], h => by
    rw [luns_lun, List.nil_append] at h
    cases (List.cons.inj h).1
    exact ⟨[], is, rfl, rfl⟩
  | .lun key' kind' :: is, b :: before, h => by
    rw [luns_lun, List.cons_append] at h
    obtain ⟨rfl, h'⟩ := List.cons.inj h
    obtain ⟨is₁, is₂, rfl, hl⟩ := luns_split is before h'
    refine ⟨.lun key' kind' :: is₁, is₂, rfl, ?_⟩
    rw [luns_lun, hl]

/-! Cycles, by where they end. -/

section
variable (still : st.Still fs x.namespacePart inv) {s : σ} (hs : inv s)
include still hs

theorem run_settled {found : List (LunKey × BackstoreKind)} {chunks : List (List Sample)}
    (hl : (Walk.luns fs x.roots).value = .ok found) (h : List.Forall₂ (Settles fs x) found chunks) :
    ∃ es s', Event.Quiet es ∧ Emission.sendAll st.send chunks.flatten s = (s', .ok ()) ∧ inv s' ∧
      run st x s = ⟨s', es, .ok (found.countP (isMatched fs x))⟩ := by
  rw [← still.fixed s hs] at hl
  obtain ⟨is, es₀, rfl, quiet, hes₀, hrun⟩ := run_walk hl
  obtain ⟨es, s', hes, hsend, hs', hv⟩ := visit_settled still [] is chunks quiet h 0 s hs
  refine ⟨es₀ ++ (es ++ []), s', hes₀.append (hes.append Event.Quiet.nil), hsend, hs', ?_⟩
  rw [List.append_nil, Nat.zero_add] at hv
  rw [hrun, hv]
  rfl

variable {before after : List (LunKey × BackstoreKind)} {key : LunKey} {kind : BackstoreKind}
  {chunks : List (List Sample)} (hl : (Walk.luns fs x.roots).value = .ok (before ++ (key, kind) :: after))
  (h : List.Forall₂ (Settles fs x) before chunks)
include hl h

/-- Up to a LUN before which all settle, a cycle sends what these have. -/
theorem run_reaches :
    ∃ es s' rest, Event.Quiet es ∧ Emission.sendAll st.send chunks.flatten s = (s', .ok ()) ∧ inv s' ∧
      run st x s = (visit st x (.lun key kind :: rest) (before.countP (isMatched fs x)) s').after es := by
  rw [← still.fixed s hs] at hl
  obtain ⟨is, es₀, his, quiet, hes₀, hrun⟩ := run_walk hl
  obtain ⟨is₁, is₂, rfl, rfl⟩ := luns_split is before his
  have quiet₁ : ∀ e, .note e ∈ is₁ → e.level = .debug := fun e he => quiet e (List.mem_append_left _ he)
  obtain ⟨es, s', hes, hsend, hs', hv⟩ := visit_settled still (.lun key kind :: is₂) is₁ chunks quiet₁ h 0 s hs
  refine ⟨es₀ ++ es, s', is₂, hes₀.append hes, hsend, hs', ?_⟩
  rw [Nat.zero_add] at hv
  rw [hrun, hv]
  simp only [Outcome.after, List.append_assoc]

theorem run_stopped {trouble : Trouble} (stops : Stops fs x key kind trouble) :
    ∃ es s', Event.Quiet es ∧ Emission.sendAll st.send chunks.flatten s = (s', .ok ()) ∧ inv s' ∧
      run st x s =
        ⟨s', es ++ [.cycleAborted (before.countP (isMatched fs x)) trouble],
          .ok (before.countP (isMatched fs x))⟩ := by
  obtain ⟨es, s', rest, hes, hsend, hs', hrun⟩ := run_reaches still hs hl h
  -- the answers at the LUN are those of the beginning
  rw [← still.fixed s' hs'] at stops
  obtain ⟨es₁, hes₁, hv⟩ := visit_stops rest (before.countP (isMatched fs x)) stops
  refine ⟨es ++ es₁, s', hes.append hes₁, hsend, hs', ?_⟩
  rw [hrun, hv]
  simp only [Outcome.after, List.append_assoc]

theorem run_broken {fault : CycleFault} (breaks : Breaks fs x key kind fault) :
    ∃ es s', Event.Quiet es ∧ Emission.sendAll st.send chunks.flatten s = (s', .ok ()) ∧ inv s' ∧
      run st x s = ⟨s', es, .error fault⟩ := by
  obtain ⟨es, s', rest, hes, hsend, hs', hrun⟩ := run_reaches still hs hl h
  rw [← still.fixed s' hs'] at breaks
  obtain ⟨es₁, hes₁, hv⟩ := visit_breaks rest (before.countP (isMatched fs x)) breaks
  refine ⟨es ++ es₁, s', hes.append hes₁, hsend, hs', ?_⟩
  rw [hrun, hv]
  rfl

end

/-! The first LUN that does not settle. -/

theorem settles_or (fs : Sysfs) (x : Exporter) (l : LunKey × BackstoreKind) :
    (∃ chunk, Settles fs x l chunk) ∨ Fails fs x l ∨ ∃ fault, Breaks fs x l.1 l.2 fault := by
  rcases fates fs x l.1 l.2 with h | h | h | ⟨i, v, h⟩
  · exact Or.inl ⟨_, Settles.unmatched h⟩
  · exact Or.inr (Or.inl h)
  · exact Or.inr (Or.inr h)
  · exact Or.inl ⟨_, Settles.ready h⟩

/-- Either all LUNs settle, or there is a first one that does not. -/
theorem first_unsettled (fs : Sysfs) (x : Exporter) : ∀ found : List (LunKey × BackstoreKind),
    (∀ l ∈ found, ∃ chunk, Settles fs x l chunk) ∨
      ∃ before l after, found = before ++ l :: after ∧ (∀ l' ∈ before, ∃ chunk, Settles fs x l' chunk) ∧
        (Fails fs x l ∨ ∃ fault, Breaks fs x l.1 l.2 fault)
  | [] => Or.inl fun l hl => absurd hl List.not_mem_nil
  | l :: found => by
    rcases settles_or fs x l with hc | hf
    · rcases first_unsettled fs x found with h | ⟨before, l', after, rfl, h, hf⟩
      · refine Or.inl fun l' hl' => ?_
        rcases List.mem_cons.1 hl' with rfl | hl'
        · exact hc
        · exact h l' hl'
      · refine Or.inr ⟨l :: before, l', after, rfl, fun l'' hl => ?_, hf⟩
        rcases List.mem_cons.1 hl with rfl | hl
        · exact hc
        · exact h l'' hl
    · exact Or.inr ⟨[], l, found, rfl, fun l' hl' => absurd hl' List.not_mem_nil, hf⟩

theorem Settles.not_fails {l : LunKey × BackstoreKind} {chunk : List Sample} (h : Settles fs x l chunk) :
    ¬ Fails fs x l := by
  intro hf
  obtain ⟨trouble, stops⟩ := hf
  cases h with
  | unmatched hu => exact stops.exclusive.1 hu
  | ready hr => exact stops.exclusive.2.1 _ _ hr

theorem Settles.not_breaks {l : LunKey × BackstoreKind} {chunk : List Sample} (h : Settles fs x l chunk)
    (fault : CycleFault) : ¬ Breaks fs x l.1 l.2 fault := by
  intro breaks
  cases h with
  | unmatched hu => exact breaks.exclusive.1 hu
  | ready hr => exact breaks.exclusive.2 _ _ hr

theorem settle_all : ∀ found : List (LunKey × BackstoreKind),
    (∀ l ∈ found, ∃ chunk, Settles fs x l chunk) → ∃ chunks, List.Forall₂ (Settles fs x) found chunks
  | [], _ => ⟨[], .nil⟩
  | l :: found, h => by
    obtain ⟨chunk, hc⟩ := h l List.mem_cons_self
    obtain ⟨chunks, hcs⟩ := settle_all found fun l' hl' => h l' (List.mem_cons_of_mem l hl')
    exact ⟨chunk :: chunks, .cons hc hcs⟩

end

/-! Accounts. -/

/-- Whether samples and count are those of LUNs that have settled. -/
structure Accounted (fs : Sysfs) (x : Exporter) (settled : List (LunKey × BackstoreKind)) (samples : List Sample)
    (result : Except CycleFault Nat) : Prop where
  samples : ∃ chunks, List.Forall₂ (Settles fs x) settled chunks ∧ samples = chunks.flatten
  count : result = .ok (settled.countP (isMatched fs x))

section
variable {σ : Type} {st : Station σ} {x : Exporter} {s : σ}

/-- What a cycle at the observed station tells about the cycle. -/
theorem sent_eq {ys : List Sample} {s' : σ × List (Delivery σ)} {es : List Event} {result : Except CycleFault Nat}
    (hsend : Emission.sendAll st.observed.send ys (s, []) = (s', .ok ()))
    (hrun : run st.observed x (s, []) = ⟨s', es, result⟩) :
    sent st x s = ys ∧ (run st x s).events = es ∧ (run st x s).result = result := by
  rw [sendAll_observed st ys s []] at hsend
  obtain ⟨hs', hr⟩ := Prod.mk.inj hsend
  refine ⟨?_, ?_, ?_⟩
  · unfold sent deliveries
    rw [hrun, ← hs', List.nil_append]
    exact accepted_eq_of_ok st.send ys s hr
  · rw [run_observed st x s [], hrun]
    rfl
  · rw [run_observed st x s [], hrun]
    rfl

theorem shown_aborted {es : List Event} (quiet : Event.Quiet es) (n : Nat) (trouble : Trouble) :
    Event.shown Level.warning.number (es ++ [.cycleAborted n trouble]) = [.cycleAborted n trouble] := by
  have h := quiet.shown_eq_nil
  unfold Event.shown at h ⊢
  rw [List.filter_append, h]
  rfl

/-- A LUN without trouble settles, where device numbers are numbers and counters fit into doubles. -/
theorem settles_of_not_fails {t : FileTree} (legal : t.Legal) (decimal : t.DecimalIds x.roots)
    {l : LunKey × BackstoreKind} (finite : ¬ Overflows t.sysfs x l.1 l.2) (h : ¬ Fails t.sysfs x l) :
    ∃ chunk, Settles t.sysfs x l chunk := by
  rcases settles_or t.sysfs x l with hc | hf | ⟨fault, hb⟩
  · exact hc
  · exact absurd hf h
  · cases hb with
    | deviceNumber f hr => exact absurd hr (Backstore.resolve_ne_deviceNumber legal decimal _ _ f)
    | overflow ho => exact absurd ho finite

/-- The accounts of a cycle over a legal file tree, at a station that stands still, with decimal device numbers
    and counters that fit into doubles:

    * without an export tree nothing is sent, the count is zero, and there is no warning;
    * without trouble at any LUN the samples and the count are those of all LUNs, and there is no warning;
    * with trouble they are those of the LUNs before the first one with trouble, and the only warning tells
      their count. -/
theorem run_accounts {inv : σ → Prop} {t : FileTree} (legal : t.Legal) (decimal : t.DecimalIds x.roots)
    (still : st.Still t.sysfs x.namespacePart inv) (hs : inv s)
    (finite : ∀ found, (Walk.luns t.sysfs x.roots).value = .ok found →
      ∀ l ∈ found, ¬ Overflows t.sysfs x l.1 l.2) :
    (∀ a, (Walk.luns t.sysfs x.roots).value = .error a →
      sent st x s = [] ∧ (run st x s).result = .ok 0 ∧
        Event.shown Level.warning.number (run st x s).events = []) ∧
    (∀ found, (Walk.luns t.sysfs x.roots).value = .ok found → (∀ l ∈ found, ¬ Fails t.sysfs x l) →
      Accounted t.sysfs x found (sent st x s) (run st x s).result ∧
        Event.shown Level.warning.number (run st x s).events = []) ∧
    ∀ before l after, (Walk.luns t.sysfs x.roots).value = .ok (before ++ l :: after) →
      (∀ l' ∈ before, ¬ Fails t.sysfs x l') → Fails t.sysfs x l →
      Accounted t.sysfs x before (sent st x s) (run st x s).result ∧
        ∃ trouble, Stops t.sysfs x l.1 l.2 trouble ∧
          Event.shown Level.warning.number (run st x s).events =
            [.cycleAborted (before.countP (isMatched t.sysfs x)) trouble] := by
  refine ⟨?_, ?_, ?_⟩
  · intro a hl
    rw [← still.observed.fixed (s, []) hs] at hl
    obtain ⟨es, quiet, hrun⟩ := run_absent hl
    have nothing : Emission.sendAll st.observed.send [] (s, []) = ((s, []), .ok ()) := rfl
    obtain ⟨hsent, hes, hr⟩ := sent_eq nothing hrun
    rw [hsent, hes, hr]
    exact ⟨rfl, rfl, quiet.shown_eq_nil⟩
  · intro found hl fine
    obtain ⟨chunks, hc⟩ := settle_all found fun l hm =>
      settles_of_not_fails legal decimal (finite found hl l hm) (fine l hm)
    obtain ⟨es, s', quiet, hsend, _, hrun⟩ := run_settled still.observed (s := (s, [])) hs hl hc
    obtain ⟨hsent, hes, hr⟩ := sent_eq hsend hrun
    rw [hsent, hes, hr]
    exact ⟨⟨⟨chunks, hc, rfl⟩, rfl⟩, quiet.shown_eq_nil⟩
  · intro before l after hl fine fails
    obtain ⟨chunks, hc⟩ := settle_all before fun l' hm =>
      settles_of_not_fails legal decimal (finite _ hl l' (List.mem_append_left _ hm)) (fine l' hm)
    obtain ⟨trouble, stops⟩ := fails
    obtain ⟨es, s', quiet, hsend, _, hrun⟩ := run_stopped still.observed (s := (s, [])) hs hl hc stops
    obtain ⟨hsent, hes, hr⟩ := sent_eq hsend hrun
    rw [hsent, hes, hr]
    exact ⟨⟨⟨chunks, hc, rfl⟩, rfl⟩, trouble, stops, shown_aborted quiet _ trouble⟩

end

end Cycle

/-! The accounts of the small tree. -/

def Exporter.specimen : Exporter := ⟨Roots.specimen, Metric.standardNamespace⟩

namespace Cycle

theorem specimen_disk :
    Settles FileTree.specimen.sysfs Exporter.specimen (LunKey.specimen "0" "rd_mcp" "0" "disk", .rdmcp)
      (triple (LunKey.specimen "0" "rd_mcp" "0" "disk") .rdmcp Metric.standardNamespace
        (.rdmcp "rd_mcp_0".toList "disk".toList) ⟨7340032, 0, 12⟩) := by
  apply Settles.ready
  have counted : (Statistics.read FileTree.specimen.sysfs Roots.specimen "iqn.a".toList "1".toList
      "0".toList).value = .ok ⟨7, 0, 12⟩ := rfl
  exact ⟨rfl, ⟨7, 0, 12⟩, counted, by decide +kernel⟩

theorem specimen_gone :
    Settles FileTree.specimen.sysfs Exporter.specimen (LunKey.specimen "1" "rd_mcp" "1" "gone", .rdmcp) [] :=
  Settles.unmatched rfl

theorem specimen_broken :
    Fails FileTree.specimen.sysfs Exporter.specimen (LunKey.specimen "2" "fileio" "2" "broken", .fileio) :=
  ⟨_, Stops.lookup _ rfl⟩

theorem specimen_ids : FileTree.specimen.AsciiIds Roots.specimen :=
  FileTree.asciiIds_of_names (p := .inside ["s".toList, "devices".toList, "rbd".toList]) rfl rfl

theorem specimen_finite : ∀ found, (Walk.luns FileTree.specimen.sysfs Roots.specimen).value = .ok found →
    ∀ l ∈ found, ¬ Overflows FileTree.specimen.sysfs Exporter.specimen l.1 l.2 := by
  intro found hl l hm ho
  cases Walk.specimen_luns.symm.trans hl
  simp only [List.mem_cons, List.not_mem_nil, or_false] at hm
  rcases hm with rfl | rfl | rfl
  · exact specimen_disk.not_breaks _ (Breaks.overflow ho)
  · exact specimen_gone.not_breaks _ (Breaks.overflow ho)
  · obtain ⟨trouble, stops⟩ := specimen_broken
    exact stops.exclusive.2.2 _ (Breaks.overflow ho)

/-- A cycle over the small tree ends at its last LUN, with the samples of the first one. -/
theorem specimen_accounts :
    Accounted FileTree.specimen.sysfs Exporter.specimen
        [(LunKey.specimen "0" "rd_mcp" "0" "disk", .rdmcp), (LunKey.specimen "1" "rd_mcp" "1" "gone", .rdmcp)]
        (sent (Recorder.station FileTree.specimen.sysfs) Exporter.specimen Recorder.fresh)
        (run (Recorder.station FileTree.specimen.sysfs) Exporter.specimen Recorder.fresh).result ∧
      ∃ trouble,
        Stops FileTree.specimen.sysfs Exporter.specimen (LunKey.specimen "2" "fileio" "2" "broken") .fileio trouble ∧
        Event.shown Level.warning.number
            (run (Recorder.station FileTree.specimen.sysfs) Exporter.specimen Recorder.fresh).events =
          [.cycleAborted ([(LunKey.specimen "0" "rd_mcp" "0" "disk", .rdmcp),
            (LunKey.specimen "1" "rd_mcp" "1" "gone", .rdmcp)].countP
              (isMatched FileTree.specimen.sysfs Exporter.specimen)) trouble] := by
  refine (run_accounts FileTree.specimen_legal specimen_ids.decimal (Recorder.station_still _ _) rfl
    specimen_finite).2.2 _ _ [] Walk.specimen_luns ?_ specimen_broken
  intro l hm
  simp only [List.mem_cons, List.not_mem_nil, or_false] at hm
  rcases hm with rfl | rfl
  · exact specimen_disk.not_fails
  · exact specimen_gone.not_fails

end Cycle
end LunMetrics
