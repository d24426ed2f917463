import Mathlib.Algebra.Group.Int.Defs
import LunMetrics.Proofs.Cycle.Delivery
import LunMetrics.Proofs.Cycle.Sends
import LunMetrics.Sink.Recorder

/- The emission of one LUN, at any sink. The sink is watched at a station that keeps a record of all that is sent to it
   (`Station.recorded`) and otherwise does what it did, so what is on record is what the sink was sent
   (`Emission.calls`). What is proved:

   1. what is sent to the recorded station is sent to the station itself in the same order (`Sends.of_recorded`);
   2. a counter that is too large leaves the sink without a single call, and otherwise the three samples of the LUN are
      sent in their order, up to the first that is refused (`emit_converts_before_sending`). -/
namespace LunMetrics

/-! The recorded station. -/

/-- A station that keeps everything sent to it beside the state, with the fault if it was refused. -/
def Station.recorded {σ : Type} (st : Station σ) : Station (σ × List Attempt) where
  sysfs s := st.sysfs s.1
  send y s := (((st.send y s.1).1, s.2 ++ [⟨y, (st.send y s.1).2⟩]), (st.send y s.1).2)

theorem Station.recorded_follows {σ : Type} (st : Station σ) : st.recorded.Follows st Prod.fst where
  sysfs _ := rfl
  send _ _ := rfl

/-- What is sent to the recorded station is sent to the station itself, and is on record. -/
theorem Station.Sends.of_recorded {σ : Type} {st : Station σ} {s s' : σ × List Attempt} {as : List Attempt}
    (h : st.recorded.Sends s as s') : st.Sends s.1 as s'.1 ∧ s'.2 = s.2 ++ as := by
  induction h with
  | none s => exact ⟨.none s.1, (List.append_nil _).symm⟩
  | @cons s s₁ s' y f as hs _ ih =>
    obtain ⟨rfl, rfl⟩ := Prod.mk.inj hs
    obtain ⟨sends, record⟩ := ih
    exact ⟨.cons rfl sends, by rw [record, List.append_assoc, List.singleton_append]⟩

namespace Emission

/-! Calls. -/

section
variable {σ : Type} (st : Station σ) (ns : Text) (i : Identity) (key : LunKey) (c : Counters) (s : σ)

/-- What a sink is sent in the emission of a LUN. -/
def calls : List Attempt := (emit st.recorded.send ns i key c (s, [])).state.2

/-- For every sink, whatever it does with what it is sent:

    * if one of the counters is too large for a double, the sink is sent nothing, and the emission fails with this;
    * otherwise it is sent the samples for bytes read, bytes written and operations of the identity's kind, in this
      order, as counters with the converted values and the same labels, either all of them or up to the first that it
      refuses, which the emission then tells. -/
theorem emit_converts_before_sending :
    (Binary64.bytesOfUnits? c.readUnits = none ∨ Binary64.bytesOfUnits? c.writeUnits = none ∨
        Binary64.ofInt? c.ops = none →
      calls st ns i key c s = [] ∧ emit st.send ns i key c s = ⟨s, [], .error .overflow⟩) ∧
    ∀ read write ops, Binary64.bytesOfUnits? c.readUnits = some read →
      Binary64.bytesOfUnits? c.writeUnits = some write → Binary64.ofInt? c.ops = some ops →
        st.Sends s (calls st ns i key c s) (emit st.send ns i key c s).state ∧
        SentInOrder (Cycle.triple key i.kind ns i ⟨read, write, ops⟩) (calls st ns i key c s)
          (emit st.send ns i key c s).result := by
  refine ⟨?_, ?_⟩
  · intro large
    have hv := (values?_eq_none_iff c).2 large
    unfold calls
    rw [Cycle.emit_overflow _ ns i key hv, Cycle.emit_overflow _ ns i key hv]
    exact ⟨rfl, rfl⟩
  · intro read write ops hr hw ho
    have hv := (values?_eq_some_iff c ⟨read, write, ops⟩).2 ⟨hr, hw, ho⟩
    obtain ⟨as, sends, order⟩ := Cycle.sendAll_inOrder st.recorded (samples ns i key ⟨read, write, ops⟩) (s, [])
    obtain ⟨sends, record⟩ := sends.of_recorded
    have calls_eq : calls st ns i key c s = as := by
      unfold calls
      rw [Cycle.emit_values _ ns i key hv]
      exact record
    -- keeping a record does not change what the sink does
    have same := Cycle.sendAll_follows st.recorded_follows (samples ns i key ⟨read, write, ops⟩) (s, [])
    simp only at same sends
    rw [calls_eq, Cycle.emit_values _ ns i key hv, same]
    exact ⟨sends, order⟩

end

/-- A recorder of one sample, which refuses the second one. -/
def oneTaken : Station Recorder := Recorder.station FileTree.empty.sysfs

/-- Of a RAM disk the bytes read are taken and the bytes written are refused, so the operations are not sent; with a
    number of operations that is too large for a double nothing is. -/
theorem oneTaken_converts_before_sending :
    let disk : Identity := .rdmcp "rd_mcp_0".toList "disk".toList
    let key : LunKey := ⟨"iqn.a".toList, "1".toList, "0".toList, ⟨"rd_mcp".toList, "0".toList, "disk".toList⟩⟩
    let full : Recorder := ⟨[], some (1, "full")⟩
    (Binary64.bytesOfUnits? 2 = some 2097152 ∧ Binary64.bytesOfUnits? 1 = some 1048576 ∧
        Binary64.ofInt? 10 = some 10) ∧
      (calls oneTaken "node".toList disk key ⟨2, 1, 10⟩ full).map (·.fault) = [none, some (.refused "full")] ∧
      SentInOrder (Cycle.triple key .rdmcp "node".toList disk ⟨2097152, 1048576, 10⟩)
        (calls oneTaken "node".toList disk key ⟨2, 1, 10⟩ full)
        (emit oneTaken.send "node".toList disk key ⟨2, 1, 10⟩ full).result ∧
      Binary64.ofInt? (10 ^ 400) = none ∧
      emit oneTaken.send "node".toList disk key ⟨2, 1, 10 ^ 400⟩ full = ⟨full, [], .error .overflow⟩ := by
  intro disk key full
  have finite : Binary64.bytesOfUnits? 2 = some 2097152 ∧ Binary64.bytesOfUnits? 1 = some 1048576 ∧
      Binary64.ofInt? 10 = some 10 := by decide +kernel
  have large : Binary64.ofInt? (10 ^ 400) = none := by decide +kernel
  refine ⟨finite, by decide +kernel, ?_, large, ?_⟩
  · exact ((emit_converts_before_sending oneTaken "node".toList disk key ⟨2, 1, 10⟩ full).2 _ _ _
      finite.1 finite.2.1 finite.2.2).2
  · exact ((emit_converts_before_sending oneTaken "node".toList disk key ⟨2, 1, 10 ^ 400⟩ full).1
      (Or.inr (Or.inr large))).2

end Emission
end LunMetrics
