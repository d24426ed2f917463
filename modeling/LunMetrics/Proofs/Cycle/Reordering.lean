import LunMetrics.Proofs.Backstore.LeastDevice
import LunMetrics.Proofs.Cycle.Delivery
import LunMetrics.Proofs.FileTree.Contents
import LunMetrics.Sink.Recorder

/- The order in which a directory enumerates its names is of no consequence. Two trees that hold the same and whose
   directories enumerate the same names in any orders (`Reordered`) give the same answers, since

   1. sorting leaves nothing of the order before it (`sorted_eq_of_perm`), and
   2. no path leads elsewhere (`locate_eq`), so every question about one is answered alike (`sysfs_eq`).

   The devices are sorted once more, by their numbers. Different names of one number are told apart by the first
   sorting alone, so this order too is a matter of the names (`Backstore.rbdDevices_byNumber`). -/
namespace LunMetrics

/-- Sorting leaves nothing of the order that there was. -/
theorem Text.sorted_eq_of_perm {ts us : List Text} (h : ts.Perm us) : sorted ts = sorted us := by
  have perm : (sorted ts).Perm (sorted us) := (sorted_perm ts).trans (h.trans (sorted_perm us).symm)
  apply List.Perm.eq_of_pairwise _ (sorted_pairwise ts) (sorted_pairwise us) perm
  intro t u _ _ htu hut
  rcases (le_iff t u).1 htu with e | before
  · exact e
  · rcases (le_iff u t).1 hut with e | before'
    · exact e.symm
    · exact absurd before' before.asymm

namespace FileTree

/-- Whether two trees hold the same, up to the orders in which their directories enumerate the names. -/
structure Reordered (t u : FileTree) : Prop where
  atRoot : t.atRoot = u.atRoot
  entry : ∀ p, t.entry? p = u.entry? p
  names : ∀ p, t.entry? p = some .directory → (t.names p).Perm (u.names p)

/-! Trees with the same entries. -/

theorem find?_location_iff (l : Location) (e : Entry) : ∀ es : List (Location × Entry), (es.map (·.1)).Nodup →
    ((es.find? fun x => x.1 = l).map (·.2) = some e ↔ (l, e) ∈ es)
  | [], _ => by simp
  | (l', e') :: es, h => by
    rw [List.map_cons, List.nodup_cons] at h
    rw [List.find?_cons]
    by_cases hl : l' = l
    · subst hl
      have fresh : (l', e) ∉ es := fun hm => h.1 (List.mem_map.2 ⟨_, hm, rfl⟩)
      simp [fresh, eq_comm]
    · simp [hl, find?_location_iff l e es h.2, Ne.symm hl]

theorem Reordered.of_perm {t u : FileTree} (distinct : (t.entries.map (·.1)).Nodup) (root : t.atRoot = u.atRoot)
    (h : t.entries.Perm u.entries) : t.Reordered u where
  atRoot := root
  entry p := by
    have distinct' : (u.entries.map (·.1)).Nodup := (h.map _).nodup_iff.1 distinct
    cases p with
    | outside => rfl
    | inside l =>
      show t.at? l = u.at? l
      unfold at?
      split
      · rfl
      · apply Option.ext
        intro e
        rw [find?_location_iff l e _ distinct, find?_location_iff l e _ distinct', h.mem_iff]
  names p _ := by
    cases p with
    | outside => exact List.Perm.refl _
    | inside l => exact h.filterMap _

section
variable {t u : FileTree} (same : t.Reordered u)
include same

theorem locate_eq (follow : Bool) (path : Text) : t.locate follow path = u.locate follow path :=
  locate_alike ⟨same.atRoot, fun p => Or.inl (same.entry p)⟩ follow path

theorem target?_eq (path : Text) : t.target? path = u.target? path := by
  have entries : t.entry? = u.entry? := funext same.entry
  simp only [target?, locate_eq same, entries]

theorem list_eq (path : Text) : t.list path = u.list path := by
  unfold list
  rw [← locate_eq same]
  cases t.locate true path with
  | error e => rfl
  | ok p =>
    simp only [← same.entry]
    split
    · next directory => rw [Text.sorted_eq_of_perm ((same.names p directory).filter _)]
    · rfl
    · rfl
    · rfl

/-- Reordered trees answer every question alike. -/
theorem sysfs_eq : t.sysfs = u.sysfs := by
  have entries : t.entry? = u.entry? := funext same.entry
  have read : t.read = u.read := funext fun path => by simp only [FileTree.read, target?_eq same]
  have readLink : t.readLink = u.readLink := funext fun path => by
    simp only [FileTree.readLink, locate_eq same, same.entry]
  have isLink : t.isLink = u.isLink := funext fun path => by
    simp only [FileTree.isLink, locate_eq same, entries]
  have list : t.list = u.list := funext (list_eq same)
  simp only [sysfs, target?_eq same, read, readLink, isLink, list]

end

end FileTree

namespace Cycle

/-- Nothing depends on the order in which a directory enumerates its names, be it in trees that change while a cycle
    is at work: the topology, the walk, the mapped devices, what any link is resolved to, and a cycle at any sink, with
    the samples that it hands over, its notes, its end and what it leaves. The mapped devices have one order. -/
theorem run_blind_to_enumeration {σ : Type} {trees trees' : σ → FileTree} (same : ∀ s, (trees s).Reordered (trees' s))
    (send : Sample → σ → σ × Option SinkFault) (x : Exporter) (s : σ) :
    Topology.read (trees s).sysfs x.roots = Topology.read (trees' s).sysfs x.roots ∧
    Walk.luns (trees s).sysfs x.roots = Walk.luns (trees' s).sysfs x.roots ∧
    (∀ w, Walk.next (trees s).sysfs x.roots w = Walk.next (trees' s).sysfs x.roots w) ∧
    Backstore.rbdDevices (trees s).sysfs x.roots = Backstore.rbdDevices (trees' s).sysfs x.roots ∧
    ((trees s).Legal → ∀ ds, (Backstore.rbdDevices (trees s).sysfs x.roots).value = .ok ds →
      (ds.map (·.id)).Pairwise Text.ByNumber) ∧
    (∀ link kind, Backstore.resolve (trees s).sysfs x.roots link kind =
      Backstore.resolve (trees' s).sysfs x.roots link kind) ∧
    run ⟨fun s => (trees s).sysfs, send⟩ x s = run ⟨fun s => (trees' s).sysfs, send⟩ x s ∧
    sent ⟨fun s => (trees s).sysfs, send⟩ x s = sent ⟨fun s => (trees' s).sysfs, send⟩ x s := by
  have answers : (fun s => (trees s).sysfs) = fun s => (trees' s).sysfs := funext fun s => FileTree.sysfs_eq (same s)
  have here : (trees s).sysfs = (trees' s).sysfs := FileTree.sysfs_eq (same s)
  simp only [here, answers, implies_true, true_and, and_true]
  intro legal ds h
  rw [← here] at h
  exact Backstore.rbdDevices_byNumber legal h

def backwards : FileTree := { Backstore.twins with entries := Backstore.twins.entries.reverse }

theorem twins_reordered : Backstore.twins.Reordered backwards :=
  FileTree.Reordered.of_perm Backstore.twins_legal.distinct rfl (List.reverse_perm _).symm

/-- The twin devices are enumerated the other way round, and the same one is taken. -/
theorem twins_blind_to_enumeration :
    Backstore.twins.names Backstore.devicePlace ≠ backwards.names Backstore.devicePlace ∧
      (∀ link kind, Backstore.resolve Backstore.twins.sysfs Roots.specimen link kind =
        Backstore.resolve backwards.sysfs Roots.specimen link kind) ∧
      (Backstore.resolve backwards.sysfs Roots.specimen Backstore.twinsLink .rbd).events =
        [.rbdMatch "a-b-c".toList "0".toList] := by
  have blind := run_blind_to_enumeration (fun _ : Recorder => twins_reordered) Recorder.send
    ⟨Roots.specimen, []⟩ Recorder.fresh
  exact ⟨by decide, blind.2.2.2.2.2.1, rfl⟩

end Cycle
end LunMetrics
