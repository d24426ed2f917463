import LunMetrics.Proofs.Cycle.Integrity
import LunMetrics.Proofs.Sysfs.Footprint

/- What a cycle asks about, while the file systems stand still (`Station.steady`). A LUN that the walk yields is one
   that an enabled group shows, with the link that its directory has (`Walk.mem_yielded`). The cycle asks what the
   walk asks, and for every LUN that it yields what resolving and counting ask (`Asks`); two file systems that agree
   there have the same cycles, at every sink (`run_congr`), which take the same samples (`deliveries_congr`). -/
namespace LunMetrics

/-! LUNs of the walk. -/

namespace Walk

theorem mem_yielded {fs : Sysfs} {r : Roots} {key : LunKey} {kind : BackstoreKind} (h : (key, kind) ∈ yielded fs r) :
    Topology.ShowsLun fs r key.iqn key.tpgt key.lun ∧
      Topology.backing? fs (r.lun key.iqn key.tpgt key.lun) = some key.link ∧
      BackstoreKind.ofToken? key.link.store = some kind := by
  unfold yielded at h
  rw [value_luns] at h
  cases hl : fs.list r.iscsi with
  | error f =>
    rw [hl] at h
    cases h
  | ok names =>
    rw [hl] at h
    -- down the levels: target, group, LUN
    obtain ⟨target, ht, h⟩ := List.mem_flatMap.1 h
    rw [Topology.value_readTargetsAmong] at ht
    obtain ⟨iqn, hi, rfl⟩ := List.mem_map.1 ht
    obtain ⟨hi, hb⟩ := List.mem_filter.1 hi
    obtain ⟨group, ⟨hg, he⟩, h⟩ := (Item.mem_targetLuns_iff _ key kind).1 h
    rw [Topology.value_readGroups] at hg
    obtain ⟨name, hn, hg⟩ := List.mem_filterMap.1 hg
    obtain ⟨rfl, hg⟩ := (Topology.groupOf?_eq_some_iff _ _ _ _).1 hg
    obtain ⟨e, hm, rfl, hk⟩ := (Item.mem_groupLuns_iff _ group key kind).1 h
    rw [Topology.value_readGroup] at hg
    have on : Topology.isEnabled fs (r.group iqn group.tag) = true := by
      rw [← hg] at he
      exact he
    have luns : group.luns = (Topology.readLuns fs (r.group iqn group.tag)).value := by
      have hluns := congrArg PortGroup.luns hg
      change (if Topology.isEnabled fs (r.group iqn group.tag) then _ else _) = _ at hluns
      rw [if_pos on] at hluns
      exact hluns.symm
    rw [luns, Topology.value_readLuns] at hm
    obtain ⟨entry, hentry, hlun⟩ := List.mem_filterMap.1 hm
    obtain ⟨rfl, backing⟩ := (Topology.lunOf?_eq_some_iff _ _ _ _).1 hlun
    refine ⟨⟨⟨⟨?_, hb⟩, hn⟩, on, hentry⟩, backing, hk⟩
    rw [Topology.shown_eq hl]
    exact hi

/-- The link that a LUN is yielded with is read off one in its directory. -/
theorem link_of_yielded {fs : Sysfs} {r : Roots} {key : LunKey} {kind : BackstoreKind}
    (h : (key, kind) ∈ yielded fs r) :
    ∃ name ∈ Topology.shown fs (r.lun key.iqn key.tpgt key.lun), ∃ target,
      fs.isLink (Path.join (r.lun key.iqn key.tpgt key.lun) name) = true ∧
        fs.readLink (Path.join (r.lun key.iqn key.tpgt key.lun) name) = .ok target ∧
        BackstoreLink.parse? target = some key.link := by
  obtain ⟨_, backing, _⟩ := mem_yielded h
  obtain ⟨name, hn, hp⟩ := List.exists_of_findSome?_eq_some backing
  obtain ⟨isLink, target, read, parsed⟩ := (Topology.pointed?_eq_some_iff _ _ _ _).1 hp
  exact ⟨name, hn, target, isLink, read, parsed⟩

theorem yielded_congr {fs fs' : Sysfs} {r : Roots} (h : fs.AgreeOn fs' (Topology.Asks fs r)) :
    yielded fs r = yielded fs' r := by
  unfold yielded luns items
  rw [Topology.read_congr h]

end Walk

/-! File systems that stand still. -/

/-- A station whose file systems never change. -/
def Station.steady {σ : Type} (fs : Sysfs) (send : Sample → σ → σ × Option SinkFault) : Station σ := ⟨fun _ => fs, send⟩

namespace Cycle

/-- What a cycle asks about. -/
inductive Asks (fs : Sysfs) (r : Roots) : Text → Prop
  | topology {path : Text} : Topology.Asks fs r path → Asks fs r path
  | backstore {key : LunKey} {kind : BackstoreKind} {path : Text} : (key, kind) ∈ Walk.yielded fs r →
      Backstore.Asks fs r key.link kind path → Asks fs r path
  | counters {key : LunKey} {kind : BackstoreKind} {path : Text} : (key, kind) ∈ Walk.yielded fs r →
      Statistics.Asks r key.iqn key.tpgt key.lun path → Asks fs r path

section
variable {σ : Type} {fs fs' : Sysfs} (send : Sample → σ → σ × Option SinkFault) {x : Exporter}

theorem updateLun_congr {key : LunKey} {kind : BackstoreKind}
    (backstore : fs.AgreeOn fs' (Backstore.Asks fs x.roots key.link kind))
    (counters : fs.AgreeOn fs' (Statistics.Asks x.roots key.iqn key.tpgt key.lun)) (s : σ) :
    updateLun (.steady fs send) x key kind s = updateLun (.steady fs' send) x key kind s := by
  simp only [updateLun, Station.steady, Backstore.resolve_congr backstore, Statistics.read_congr counters]

theorem visit_congr : ∀ is : List Item,
    (∀ l ∈ Item.luns is, ∀ s, updateLun (.steady fs send) x l.1 l.2 s = updateLun (.steady fs' send) x l.1 l.2 s) →
      ∀ (n : Nat) (s : σ), visit (.steady fs send) x is n s = visit (.steady fs' send) x is n s
  | [], _, _, _ => rfl
  | .note e :: is, h, n, s => by
    simp only [visit, visit_congr is h n s]
  | .lun key kind :: is, h, n, s => by
    have here := h (key, kind) List.mem_cons_self s
    have rest := visit_congr is fun l hl => h l (List.mem_cons_of_mem _ hl)
    simp only [visit, here, rest]

/-- A cycle depends on nothing but what it asks about. -/
theorem run_congr (h : fs.AgreeOn fs' (Asks fs x.roots)) (s : σ) :
    run (.steady fs send) x s = run (.steady fs' send) x s := by
  have items : Walk.items fs x.roots = Walk.items fs' x.roots := by
    unfold Walk.items
    rw [Topology.read_congr fun path hp => h path (Asks.topology hp)]
  simp only [run, Station.steady, ← items]
  cases hv : (Walk.items fs x.roots).value with
  | error a => rfl
  | ok is =>
    have yielded : Item.luns is = Walk.yielded fs x.roots := by
      simp only [Walk.yielded, Walk.luns, hv]
    have updates : ∀ l ∈ Item.luns is, ∀ s,
        updateLun (.steady fs send) x l.1 l.2 s = updateLun (.steady fs' send) x l.1 l.2 s := by
      intro l hl
      rw [yielded] at hl
      exact updateLun_congr send (fun path hp => h path (Asks.backstore hl hp))
        fun path hp => h path (Asks.counters hl hp)
    have visits := visit_congr send is updates 0 s
    unfold Station.steady at visits
    simp only [visits]

theorem deliveries_congr (h : fs.AgreeOn fs' (Asks fs x.roots)) (s : σ) :
    deliveries (.steady fs send) x s = deliveries (.steady fs' send) x s := by
  -- an observed station stands still too
  have observed := run_congr (Station.steady fs send).observed.send h (s, [])
  exact congrArg (fun o => o.state.2) observed

end

end Cycle
end LunMetrics
