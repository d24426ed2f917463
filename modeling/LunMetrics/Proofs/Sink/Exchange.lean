import Mathlib.Data.List.Induction
import LunMetrics.Sink.SampleQueue
import LunMetrics.Proofs.Cycle.Accounting
import LunMetrics.Proofs.Cycle.Sends

/- A queue between producers and a consumer. What happens at it is a history of moves, put in any order by anyone: a
   sample is put, or samples are taken out (`QueueMove`). A history leaves the queue with a record of what was taken
   and of every put with its outcome (`Exchange`). What is proved:

   1. every move keeps the accounts (`Balanced`): what was taken and what still waits are together the accepted
      samples, in the order of their puts, and no more than the limit wait (`step_balanced`, `after_balanced`);
   2. when a put is refused, and that it then leaves the queue as it was (`put_refused_iff`, `put_of_some`); after
      samples were taken there is room (`put_drained`);
   3. the moves of a producer are a station at which others may do anything before each send (`station`), so a
      producer's operations only add to the history, and their attempts are on record (`sends_recorded`);
   4. all of this together, for every history and every operation (`hands_over_in_order`). -/
namespace LunMetrics

/-! Moves. -/

/-- What happens at a queue: a sample is put, or samples are taken, at most so many if that is given. -/
inductive QueueMove
  | put (sample : Sample)
  | drain (max : Option Nat)
  deriving DecidableEq, Repr

/-- A queue with what was taken out of it so far, oldest first, and every put with its outcome. -/
structure Exchange where
  queue : SampleQueue
  drained : List Sample
  attempts : List Attempt
  deriving DecidableEq, Repr

namespace SampleQueue

variable {timeout : Int} {y : Sample} {q : SampleQueue}

/-- A put is refused by a queue with a limit, if there is no room or if the time to wait is negative. -/
theorem put_refused_iff (timeout : Int) (y : Sample) (q : SampleQueue) :
    (q.put timeout y).2.isSome = true ↔ 0 < q.limit ∧ (timeout < 0 ∨ q.limit ≤ q.waiting.length) := by
  unfold put isFull
  by_cases limited : 0 < q.limit
  · by_cases negative : timeout < 0
    · simp [limited, negative]
    · by_cases full : q.limit ≤ q.waiting.length <;> simp [limited, negative, full]
  · simp [limited]

theorem put_of_some {f : SinkFault} (h : (q.put timeout y).2 = some f) : (q.put timeout y).1 = q := by
  unfold put at h ⊢
  split
  · rfl
  · split
    · rfl
    · next room unlimited => simp [room, unlimited] at h

theorem put_of_none (h : (q.put timeout y).2 = none) :
    (q.put timeout y).1 = { q with waiting := q.waiting ++ [y] } := by
  unfold put at h ⊢
  split
  · next negative => simp [negative] at h
  · split
    · next negative full => simp [negative, full] at h
    · rfl

theorem put_drained (bounded : 0 < q.limit → q.waiting.length ≤ q.limit) (patient : 0 ≤ timeout) {max : Option Nat}
    (taken : (q.drain max).1 ≠ []) (y : Sample) : ((q.drain max).2.put timeout y).2 = none := by
  rw [← Option.not_isSome_iff_eq_none, put_refused_iff]
  rintro ⟨limited, negative | full⟩
  · omega
  · unfold drain at taken limited full
    simp only [ne_eq, List.take_eq_nil_iff, not_or] at taken
    obtain ⟨some_taken, waiting⟩ := taken
    have before := bounded limited
    have length := List.length_pos_iff.2 waiting
    simp only [List.length_drop] at full
    omega

end SampleQueue

namespace Exchange

def opened (limit : Int) : Exchange := ⟨⟨limit, []⟩, [], []⟩

/-- The samples that were accepted, in the order of their puts. -/
def accepted (e : Exchange) : List Sample := (e.attempts.filter (·.fault.isNone)).map (·.sample)

def step (timeout : Int) (e : Exchange) : QueueMove → Exchange
  | .put y =>
    let (queue, fault) := e.queue.put timeout y
    { e with queue, attempts := e.attempts ++ [⟨y, fault⟩] }
  | .drain max =>
    let (taken, queue) := e.queue.drain max
    { e with queue, drained := e.drained ++ taken }

def after (limit timeout : Int) (h : List QueueMove) : Exchange := h.foldl (step timeout) (opened limit)

theorem after_concat (limit timeout : Int) (h : List QueueMove) (m : QueueMove) :
    after limit timeout (h ++ [m]) = step timeout (after limit timeout h) m := by
  unfold after
  rw [List.foldl_append]
  rfl

/-! Accounts. -/

/-- Whether what was taken and what waits are the accepted samples in their order, and no more wait than may. -/
structure Balanced (limit : Int) (e : Exchange) : Prop where
  limited : e.queue.limit = limit
  conserved : e.drained ++ e.queue.waiting = e.accepted
  bounded : 0 < limit → e.queue.waiting.length ≤ limit

theorem opened_balanced (limit : Int) : (opened limit).Balanced limit where
  limited := rfl
  conserved := rfl
  bounded h := Int.le_of_lt h

section
variable {limit timeout : Int} {e : Exchange}

theorem accepted_put (timeout : Int) (e : Exchange) (y : Sample) : (step timeout e (.put y)).accepted =
    e.accepted ++ if (e.queue.put timeout y).2 = none then [y] else [] := by
  unfold accepted step
  rw [List.filter_append, List.map_append]
  cases (e.queue.put timeout y).2 <;> rfl

theorem step_put_of_some {y : Sample} {f : SinkFault} (h : (e.queue.put timeout y).2 = some f) :
    step timeout e (.put y) = { e with attempts := e.attempts ++ [⟨y, some f⟩] } := by
  simp only [step, SampleQueue.put_of_some h, h]

theorem step_balanced (h : e.Balanced limit) (m : QueueMove) : (step timeout e m).Balanced limit := by
  cases m with
  | put y =>
    cases hf : (e.queue.put timeout y).2 with
    | some f =>
      have same := accepted_put timeout e y
      rw [hf, if_neg (by simp), List.append_nil] at same
      have left := step_put_of_some hf
      constructor
      case limited => rw [left, h.limited]
      case conserved => rw [same, left, h.conserved]
      case bounded =>
        rw [left]
        exact h.bounded
    | none =>
      have more := accepted_put timeout e y
      rw [if_pos hf] at more
      have queue : (step timeout e (.put y)).queue = _ := SampleQueue.put_of_none hf
      have room : ¬ (0 < limit ∧ limit ≤ e.queue.waiting.length) := by
        rintro ⟨limited, full⟩
        rw [← h.limited] at limited full
        have refused := (SampleQueue.put_refused_iff timeout y e.queue).2 ⟨limited, Or.inr full⟩
        rw [hf] at refused
        cases refused
      constructor
      case limited => rw [queue, h.limited]
      case conserved =>
        rw [more, queue, ← h.conserved, List.append_assoc]
        rfl
      case bounded =>
        intro limited
        rw [queue]
        simp only [List.length_append, List.length_singleton]
        omega
  | drain max =>
    constructor
    case limited => exact h.limited
    case conserved =>
      show (e.drained ++ e.queue.waiting.take _) ++ e.queue.waiting.drop _ = e.accepted
      rw [List.append_assoc, List.take_append_drop, h.conserved]
    case bounded =>
      intro limited
      have before := h.bounded limited
      show ((e.queue.waiting.drop _).length : Int) ≤ limit
      rw [List.length_drop]
      omega

end

section
variable (limit timeout : Int)

/-- Whatever happens at a queue keeps the accounts. -/
theorem after_balanced (h : List QueueMove) : (after limit timeout h).Balanced limit := by
  induction h using List.reverseRecOn with
  | nil => exact opened_balanced limit
  | append_singleton h m ih =>
    rw [after_concat]
    exact step_balanced ih m

/-! Producers. -/

/-- A producer at the queue. Before each of its sends others put and take what they like, and at every moment the file
    systems answer what they like, given all that happened before. -/
def station (world : List QueueMove → Sysfs) (others : List QueueMove → List QueueMove) : Station (List QueueMove) where
  sysfs := world
  send y h := (h ++ others h ++ [.put y], ((after limit timeout (h ++ others h)).queue.put timeout y).2)

theorem attempts_append (h more : List QueueMove) : ∃ new,
    (after limit timeout (h ++ more)).attempts = (after limit timeout h).attempts ++ new := by
  induction more using List.reverseRecOn with
  | nil => exact ⟨[], by simp⟩
  | append_singleton more m ih =>
    obtain ⟨new, hn⟩ := ih
    rw [← List.append_assoc, after_concat]
    cases m with
    | put y =>
      refine ⟨new ++ [⟨y, ((after limit timeout (h ++ more)).queue.put timeout y).2⟩], ?_⟩
      rw [← List.append_assoc, ← hn]
      rfl
    | drain max => exact ⟨new, hn⟩

/-- The sends of a producer add to the history, and its attempts are on record in their order. -/
theorem sends_recorded {world : List QueueMove → Sysfs} {others : List QueueMove → List QueueMove}
    {h h' : List QueueMove} {as : List Attempt} (sends : (station limit timeout world others).Sends h as h') :
    h <+: h' ∧ ∃ new, (after limit timeout h').attempts = (after limit timeout h).attempts ++ new ∧
      as.Sublist new := by
  induction sends with
  | none h => exact ⟨List.prefix_rfl, [], (List.append_nil _).symm, List.Sublist.refl _⟩
  | @cons h h₁ h' y f as hs _ ih =>
    obtain ⟨grown, new, recorded, among⟩ := ih
    obtain ⟨rfl, rfl⟩ := Prod.mk.inj hs
    obtain ⟨before, hb⟩ := attempts_append limit timeout h (others h)
    have here := congrArg Exchange.attempts (after_concat limit timeout (h ++ others h) (.put y))
    refine ⟨List.IsPrefix.trans ⟨others h ++ [.put y], by simp⟩ grown, before ++ ⟨y, _⟩ :: new, ?_,
      (among.cons_cons _).trans (List.sublist_append_right before _)⟩
    rw [recorded, here]
    simp only [step, hb, List.append_assoc, List.singleton_append]

/-- What holds of a queue with a limit, or without one if it is zero or less, and of a time to wait that is zero or
    negative, at every point of every history of puts and drains:

    * what was taken and what waits are the accepted samples in the order of their puts, and a positive limit is kept;
    * a put is refused exactly if there is a limit and either no room or a negative time to wait, and it then leaves
      nothing but its record;
    * where no negative time is waited, a put is accepted as soon as something was taken;
    * an operation of a producer, whatever others do between its sends and however the file systems change, goes on
      from the history by attempts of its own that are on record; none but the last of them is refused, and the answer
      tells a refusal exactly if there is one. -/
theorem hands_over_in_order :
    (∀ h, (after limit timeout h).Balanced limit) ∧
    (∀ h y, (((after limit timeout h).queue.put timeout y).2.isSome = true ↔
        0 < limit ∧ (timeout < 0 ∨ limit ≤ (after limit timeout h).queue.waiting.length)) ∧
      ∀ f, ((after limit timeout h).queue.put timeout y).2 = some f →
        after limit timeout (h ++ [.put y]) =
          { after limit timeout h with attempts := (after limit timeout h).attempts ++ [⟨y, some f⟩] }) ∧
    (∀ h max y, 0 ≤ timeout → ((after limit timeout h).queue.drain max).1 ≠ [] →
      ((after limit timeout (h ++ [.drain max])).queue.put timeout y).2 = none) ∧
    ∀ world others (op : Operation) h,
      ∃ as, (station limit timeout world others).Sends h as (op.perform (station limit timeout world others) h).1 ∧
        h <+: (op.perform (station limit timeout world others) h).1 ∧
        (∃ new, (after limit timeout (op.perform (station limit timeout world others) h).1).attempts =
          (after limit timeout h).attempts ++ new ∧ as.Sublist new) ∧
        Reports as fun metric f => (op.perform (station limit timeout world others) h).2.Tells metric f := by
  refine ⟨after_balanced limit timeout, ?_, ?_, ?_⟩
  · intro h y
    have balanced := after_balanced limit timeout h
    refine ⟨?_, ?_⟩
    · rw [SampleQueue.put_refused_iff, balanced.limited]
    · intro f hf
      rw [after_concat]
      exact step_put_of_some hf
  · intro h max y patient taken
    have balanced := after_balanced limit timeout h
    rw [after_concat]
    refine SampleQueue.put_drained ?_ patient taken y
    rw [balanced.limited]
    exact balanced.bounded
  · intro world others op h
    obtain ⟨as, sends, reports⟩ := op.perform_sends (station limit timeout world others) h
    obtain ⟨grown, recorded⟩ := sends_recorded limit timeout sends
    exact ⟨as, sends, grown, recorded, reports⟩

end

/-- The history of a cycle over the small tree at a queue for two samples, which nobody drains. -/
def specimenHistory : List QueueMove :=
  ((Operation.cycle Exporter.specimen).perform (station 2 0 (fun _ => FileTree.specimen.sysfs) fun _ => []) []).1

/-- The third sample of the only triple is refused; the two that wait are accounted for, and once one of them is taken
    the next put is accepted. -/
theorem specimen_hands_over :
    (after 2 0 specimenHistory).attempts.map (·.fault) = [none, none, some .queueFull] ∧
      (after 2 0 specimenHistory).Balanced 2 ∧ ((after 2 0 specimenHistory).queue.drain (some 1)).1 ≠ [] ∧
      ∀ y, ((after 2 0 (specimenHistory ++ [.drain (some 1)])).queue.put 0 y).2 = none := by
  have taken : ((after 2 0 specimenHistory).queue.drain (some 1)).1 ≠ [] := by decide +kernel
  refine ⟨by decide +kernel, (hands_over_in_order 2 0).1 specimenHistory, taken, ?_⟩
  intro y
  exact (hands_over_in_order 2 0).2.2.1 specimenHistory (some 1) y (Int.le_refl 0) taken

end Exchange
end LunMetrics
