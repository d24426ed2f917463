import LunMetrics.Proofs.Topology.Placement

/- Which storage object is looked up for a link. It is the one in the directory whose name is made of the beginning
   for the kind and the number in the link (`directoryName`), which an identity bears too (`Identifies`). That is
   the name in the link, and the directory the one that the link points at, exactly if the type token of the link
   is not the name of a RAM disk's kind (`directoryName_eq_iff`, `object_eq_iff`); nothing else in the tree of
   storage objects is asked about (`Asks.within`). -/
namespace LunMetrics

namespace BackstoreKind

theorem ofToken?_eq_some_iff (token : Text) (kind : BackstoreKind) :
    ofToken? token = some kind ↔ token = kind.name ∨ token = kind.dirName := by
  refine ⟨?_, ?_⟩
  · intro h
    have hit := List.find?_some h
    rw [Bool.or_eq_true, decide_eq_true_eq, decide_eq_true_eq] at hit
    exact hit
  · intro h
    rcases h with rfl | rfl
    · cases kind <;> rfl
    · cases kind <;> rfl

theorem dirName_eq_iff {token : Text} {kind : BackstoreKind} (h : ofToken? token = some kind) :
    kind.dirName = token ↔ token ≠ rdmcp.name := by
  rcases (ofToken?_eq_some_iff token kind).1 h with rfl | rfl
  · cases kind <;> decide
  · cases kind <;> decide

end BackstoreKind

namespace Backstore

/-- What is asked about to resolve a link is in the directory of the storage object or in the device tree. -/
theorem Asks.within {fs : Sysfs} {r : Roots} {link : BackstoreLink} (plain : Path.IsPlain link.object)
    {kind : BackstoreKind} {path : Text} (h : Asks fs r link kind path) :
    Path.Within (r.object kind.dirName link.number link.object) path ∨ Path.Within r.rbdDevices path := by
  cases h with
  | udevPath => exact Or.inl (Path.within_joined (Path.Open.join _ plain.toIsPart) (by decide))
  | object => exact Or.inl (Path.Within.refl _)
  | devices => exact Or.inr (Path.Within.refl _)
  | pool _ digits => exact Or.inr (r.within_device digits (by decide))
  | image _ digits => exact Or.inr (r.within_device digits (by decide))

section
variable {link : BackstoreLink} {kind : BackstoreKind}

/-- The directory that is looked up has the name in the link, unless the type token is the name of a RAM disk's
    kind. -/
theorem directoryName_eq_iff (known : BackstoreKind.ofToken? link.store = some kind) :
    directoryName kind link = link.dirName ↔ link.store ≠ BackstoreKind.rdmcp.name := by
  rw [← BackstoreKind.dirName_eq_iff known]
  unfold directoryName BackstoreLink.dirName
  exact List.append_left_inj _

theorem object_eq_iff (r : Roots) (hstore : '/' ∉ link.store) (hnumber : '/' ∉ link.number)
    (hobject : Path.IsPlain link.object) :
    r.object kind.dirName link.number link.object = Path.joinAll r.core [link.dirName, link.object] ↔
      directoryName kind link = link.dirName := by
  refine ⟨?_, ?_⟩
  · intro e
    have here : ∀ n ∈ [directoryName kind link, link.object], Path.IsPart n := by
      simp only [List.forall_mem_cons]
      exact ⟨(kind.isPlain_directory hnumber).toIsPart, hobject.toIsPart, List.forall_mem_nil _⟩
    have there : ∀ n ∈ [link.dirName, link.object], Path.IsPart n := by
      simp only [List.forall_mem_cons]
      exact ⟨⟨by simp [BackstoreLink.dirName], by simp [BackstoreLink.dirName, hstore, hnumber]⟩, hobject.toIsPart,
        List.forall_mem_nil _⟩
    exact (List.cons.inj (Path.joinAll_inj r.open_core here there e)).1
  · intro e
    rw [← e]
    rfl

end

end Backstore

end LunMetrics
