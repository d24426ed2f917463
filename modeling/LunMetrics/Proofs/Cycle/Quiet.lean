import LunMetrics.Cycle.Run

/- What a cycle notes below the severity of a warning. `Event.Quiet` says that all of some events are for
   debugging, `Logged.Quiet` that a part notes only such events; both are argued step by step. The readers,
   the resolution of a storage object, the reading of counters and the update of a LUN are quiet
   (`items_quiet`, `resolve_quiet`, `read_quiet`, `updateLun_quiet`), so the only warning of a cycle is the
   one about its end. -/
namespace LunMetrics

/-! Judgements. -/

/-- Whether all events are for debugging. -/
def Event.Quiet (es : List Event) : Prop := ∀ e ∈ es, e.level = .debug

namespace Event.Quiet

theorem nil : Event.Quiet [] := by
  intro e he
  cases he

theorem single {e : Event} (h : e.level = .debug) : Event.Quiet [e] := by
  intro e' he
  rw [List.mem_singleton.1 he]
  exact h

theorem append {es fs : List Event} (h : Event.Quiet es) (h' : Event.Quiet fs) : Event.Quiet (es ++ fs) := by
  intro e he
  rcases List.mem_append.1 he with he | he
  · exact h e he
  · exact h' e he

theorem shown_eq_nil {es : List Event} (h : Event.Quiet es) : Event.shown Level.warning.number es = [] := by
  unfold Event.shown
  rw [List.filter_eq_nil_iff]
  intro e he
  rw [h e he]
  decide

end Event.Quiet

/-- Whether a part notes only what is for debugging. -/
def Logged.Quiet {α : Type} (m : Logged α) : Prop := Event.Quiet m.events

namespace Logged.Quiet

theorem pure' {α : Type} (a : α) : Logged.Quiet (pure a) := Event.Quiet.nil

theorem note {e : Event} (h : e.level = .debug) : Logged.Quiet (Logged.note e) := Event.Quiet.single h

theorem bind {α β : Type} {m : Logged α} {f : α → Logged β} (h : Logged.Quiet m)
    (h' : ∀ a, Logged.Quiet (f a)) : Logged.Quiet (m >>= f) :=
  Event.Quiet.append h (h' m.value)

end Logged.Quiet

/-! Reading the topology. -/

namespace Topology

open Logged

theorem findLink_quiet (fs : Sysfs) (dir : Text) : ∀ names : List Text, Quiet (findLink fs dir names)
  | [] => Quiet.bind (Quiet.note rfl) fun _ => Quiet.pure' _
  | name :: names => by
    have ih := findLink_quiet fs dir names
    simp only [findLink]
    split
    · split
      · exact ih
      · split
        · exact Quiet.pure' _
        · exact Quiet.bind (Quiet.note rfl) fun _ => ih
    · exact ih

theorem readLink_quiet (fs : Sysfs) (dir : Text) : Quiet (readLink fs dir) := by
  unfold readLink
  split
  · exact Quiet.pure' _
  · exact findLink_quiet fs dir _

theorem readEntries_quiet (fs : Sysfs) (root : Text) : ∀ names : List Text, Quiet (readEntries fs root names)
  | [] => Quiet.pure' _
  | name :: names => by
    have ih := readEntries_quiet fs root names
    simp only [readEntries]
    split
    · exact ih
    · exact Quiet.bind (readLink_quiet fs _) fun _ => Quiet.bind ih fun _ => Quiet.pure' _

theorem readLuns_quiet (fs : Sysfs) (path : Text) : Quiet (readLuns fs path) := by
  unfold readLuns
  simp only
  split
  · exact Quiet.pure' _
  · exact readEntries_quiet fs _ _

theorem readGroup_quiet (fs : Sysfs) (path tag : Text) : Quiet (readGroup fs path tag) := by
  unfold readGroup
  refine Quiet.bind (Quiet.note rfl) fun _ => ?_
  simp only
  split
  · exact Quiet.bind (readLuns_quiet fs path) fun _ => Quiet.pure' _
  · exact Quiet.bind (Quiet.pure' _) fun _ => Quiet.pure' _

theorem readGroupsAmong_quiet (fs : Sysfs) (target : Text) :
    ∀ names : List Text, Quiet (readGroupsAmong fs target names)
  | [] => Quiet.pure' _
  | name :: names => by
    have ih := readGroupsAmong_quiet fs target names
    simp only [readGroupsAmong]
    split
    · exact ih
    · exact Quiet.bind (readGroup_quiet fs _ _) fun _ => Quiet.bind ih fun _ => Quiet.pure' _

theorem readGroups_quiet (fs : Sysfs) (path : Text) : Quiet (readGroups fs path) := by
  unfold readGroups
  split
  · exact Quiet.bind (Quiet.note rfl) fun _ => Quiet.pure' _
  · exact readGroupsAmong_quiet fs path _

theorem readTargetsAmong_quiet (fs : Sysfs) (r : Roots) :
    ∀ names : List Text, Quiet (readTargetsAmong fs r names)
  | [] => Quiet.pure' _
  | iqn :: names => by
    have ih := readTargetsAmong_quiet fs r names
    simp only [readTargetsAmong]
    split
    · exact Quiet.bind (readGroups_quiet fs _) fun _ => Quiet.bind ih fun _ => Quiet.pure' _
    · exact ih

theorem read_quiet (fs : Sysfs) (r : Roots) : Quiet (Topology.read fs r) := by
  unfold Topology.read
  split
  · exact Quiet.pure' _
  · exact Quiet.bind (readTargetsAmong_quiet fs r _) fun _ => Quiet.pure' _

end Topology

/-- The stops of a walk are noted quietly: on the way to them, and between them. -/
theorem Walk.items_quiet (fs : Sysfs) (r : Roots) : Logged.Quiet (Walk.items fs r) :=
  Logged.Quiet.bind (Topology.read_quiet fs r) fun _ => Logged.Quiet.pure' _

theorem Item.ofTargets_quiet (xs : List Target) : ∀ e, Item.note e ∈ Item.ofTargets xs → e.level = .debug := by
  intro e he
  obtain ⟨x, _, hx⟩ := List.mem_flatMap.1 he
  -- it is the note of a target, the note of a LUN, or the one that a kind is skipped
  rcases List.mem_cons.1 hx with h | h
  · cases h
    rfl
  · obtain ⟨g, _, hg⟩ := List.mem_flatMap.1 h
    obtain ⟨l, _, hl⟩ := List.mem_flatMap.1 hg
    rcases List.mem_cons.1 hl with h | h
    · cases h
      rfl
    · split at h
      · cases List.mem_singleton.1 h
      · cases List.mem_singleton.1 h
        rfl

/-! Updating a LUN. -/

namespace Backstore

open Logged

theorem rbdDevices_quiet (fs : Sysfs) (r : Roots) : Quiet (rbdDevices fs r) := by
  unfold rbdDevices
  split
  · exact Quiet.bind (Quiet.note rfl) fun _ => Quiet.pure' _
  · split
    · exact Quiet.pure' _
    · exact Quiet.pure' _

theorem matchRbd_quiet (fs : Sysfs) (r : Roots) (link : BackstoreLink) (devices : List RbdDevice) :
    Quiet (matchRbd fs r link devices) := by
  unfold matchRbd
  split
  · exact Quiet.bind (Quiet.note rfl) fun _ => Quiet.pure' _
  · refine Quiet.bind (Quiet.note rfl) fun _ => ?_
    split
    · exact Quiet.pure' _
    · exact Quiet.pure' _

theorem resolve_quiet (fs : Sysfs) (r : Roots) (link : BackstoreLink) (kind : BackstoreKind) :
    Quiet (resolve fs r link kind) := by
  cases kind with
  | fileio => exact Quiet.pure' _
  | iblock => exact Quiet.pure' _
  | rbd =>
    simp only [resolve]
    refine Quiet.bind (rbdDevices_quiet fs r) fun devices => ?_
    split
    · exact Quiet.pure' _
    · exact matchRbd_quiet fs r link _
  | rdmcp =>
    simp only [resolve]
    split
    · exact Quiet.pure' _
    · exact Quiet.pure' _

end Backstore

theorem Statistics.read_quiet (fs : Sysfs) (r : Roots) (iqn tpgt lun : Text) :
    Logged.Quiet (Statistics.read fs r iqn tpgt lun) := by
  unfold Statistics.read
  split
  · exact Logged.Quiet.pure' _
  · exact Logged.Quiet.bind (Logged.Quiet.note rfl) fun _ => Logged.Quiet.pure' _

theorem Emission.emit_quiet {σ : Type} (send : Sample → σ → σ × Option SinkFault) (ns : Text)
    (identity : Identity) (key : LunKey) (counters : Counters) (s : σ) :
    Event.Quiet (Emission.emit send ns identity key counters s).events := by
  unfold Emission.emit
  split
  · exact Event.Quiet.nil
  · exact Event.Quiet.single rfl

theorem Cycle.updateLun_quiet {σ : Type} (st : Station σ) (x : Exporter) (key : LunKey) (kind : BackstoreKind)
    (s : σ) : Event.Quiet (Cycle.updateLun st x key kind s).events := by
  have hr := Backstore.resolve_quiet (st.sysfs s) x.roots key.link kind
  have hc := Statistics.read_quiet (st.sysfs s) x.roots key.iqn key.tpgt key.lun
  unfold Cycle.updateLun
  simp only
  split
  · exact hr
  · exact hr.append (Event.Quiet.single rfl)
  · split
    · exact (hr.append (Event.Quiet.single rfl)).append hc
    · exact ((hr.append (Event.Quiet.single rfl)).append hc).append (Emission.emit_quiet _ _ _ _ _ _)

end LunMetrics
