import LunMetrics.Backstore.Resolve
import LunMetrics.Proofs.FileTree.Listing
import LunMetrics.Proofs.Text.Numerals

/- What resolving a LUN can come to. Names of device directories are picked by the weaker test for digits and
   read by the stronger one, so the device numbers are read without a fault if every name that is picked is
   made of decimal digits (`DecimalIds`); a legal tree has no name too long for a number.

   1. `AsciiIds.decimal`: among ASCII characters the two tests agree;
   2. `resolve_cases`: the four things that resolving comes to, from which follow what an identity tells
      (`resolve_identifies`) and the absence of faults in device numbers (`resolve_ne_deviceNumber`). -/
namespace LunMetrics

/-! Digits. -/

namespace Text

theorem decimal?_isSome_of_ascii {c : Char} (ascii : c.toNat < 128) (h : isDigit c = true) :
    (decimal? c).isSome := by
  -- the digits that are not decimal lie above ASCII
  have high : ∀ r ∈ loneDigits, 128 ≤ r.1 := by decide
  unfold isDigit at h
  rw [Bool.or_eq_true] at h
  rcases h with h | h
  · exact h
  · obtain ⟨r, hr, hc⟩ := List.any_eq_true.1 h
    rw [Bool.and_eq_true, decide_eq_true_eq] at hc
    have := high r hr
    omega

end Text

/-! Device names. -/

namespace FileTree

/-- Whether every device directory that is named by digits is named by decimal digits. -/
def DecimalIds (t : FileTree) (r : Roots) : Prop :=
  ∀ name, t.Holds r.rbdDevices name → Text.areDigits name = true → ∀ c ∈ name, (Text.decimal? c).isSome

/-- Whether the entries of the device tree have names in ASCII. -/
def AsciiIds (t : FileTree) (r : Roots) : Prop := ∀ name, t.Holds r.rbdDevices name → ∀ c ∈ name, c.toNat < 128

theorem AsciiIds.decimal {t : FileTree} {r : Roots} (h : t.AsciiIds r) : t.DecimalIds r := by
  intro name hn hd c hc
  unfold Text.areDigits at hd
  rw [Bool.and_eq_true, List.all_eq_true] at hd
  exact Text.decimal?_isSome_of_ascii (h name hn c hc) (hd.2 c hc)

theorem asciiIds_of_names {t : FileTree} {r : Roots} {p : Place} (here : t.locate true r.rbdDevices = .ok p)
    (ascii : ((t.names p).all fun name => name.all fun c => c.toNat < 128) = true) : t.AsciiIds r := by
  intro name h c hc
  obtain ⟨q, hq, _, hn⟩ := h
  cases here.symm.trans hq
  exact of_decide_eq_true (List.all_eq_true.1 (List.all_eq_true.1 ascii name hn) c hc)

end FileTree

namespace Backstore

theorem numbered_ok : ∀ ids : List Text, (∀ id ∈ ids, ∃ n, Text.natural id = .ok n) → ∃ ns, numbered ids = .ok ns
  | [], _ => ⟨[], rfl⟩
  | id :: ids, h => by
    obtain ⟨n, hn⟩ := h id List.mem_cons_self
    obtain ⟨ns, hns⟩ := numbered_ok ids fun id' h' => h id' (List.mem_cons_of_mem id h')
    refine ⟨(n, id) :: ns, ?_⟩
    rw [numbered, hn, hns]
    rfl

theorem deviceIds_ok {t : FileTree} (legal : t.Legal) {r : Roots} (decimal : t.DecimalIds r)
    {names : List Text} (h : t.list r.rbdDevices = .ok names) : ∃ ids, deviceIds names = .ok ids := by
  have hn : ∀ id ∈ names.filter Text.areDigits, ∃ n, Text.natural id = .ok n := by
    intro id hid
    obtain ⟨hm, hd⟩ := List.mem_filter.1 hid
    have held := ((FileTree.mem_list_iff h id).1 hm).1
    have name := held.isName legal
    -- a name is at most 255 bytes long, a numeral at most 4300 characters
    have short : id.length ≤ FileTree.maxName := Nat.le_trans (FileTree.length_le_size id) name.short
    apply Text.natural_ok name.notEmpty (decimal id held hd)
    exact Nat.le_trans short (by decide)
  obtain ⟨ns, hns⟩ := numbered_ok _ hn
  unfold deviceIds
  rw [hns]
  exact ⟨_, rfl⟩

/-! Resolving. -/

theorem value_rbdDevices (fs : Sysfs) (r : Roots) :
    (rbdDevices fs r).value =
      match fs.list r.rbdDevices with
      | .error _ => .ok []
      | .ok names =>
        match deviceIds names with
        | .error f => .error (.deviceNumber f)
        | .ok ids => (readDevices fs r ids).mapError .lookup := by
  unfold rbdDevices
  cases fs.list r.rbdDevices with
  | error f => rfl
  | ok names =>
    simp only
    cases deviceIds names <;> rfl

theorem value_matchRbd (fs : Sysfs) (r : Roots) (link : BackstoreLink) (devices : List RbdDevice) :
    (matchRbd fs r link devices).value =
      match devices.find? (·.object = link.object) with
      | none => .ok none
      | some d =>
        if objectExists fs r BackstoreKind.rbd.dirName link.number d.object then
          .ok (some (.rbd (directoryName .rbd link) d.pool d.image))
        else .error (.lookup (.rbdObject d.id link.number d.object)) := by
  unfold matchRbd
  cases devices.find? (·.object = link.object) with
  | none => rfl
  | some d =>
    simp only [Logged.value_bind]
    split <;> rfl

theorem value_resolve_rbd (fs : Sysfs) (r : Roots) (link : BackstoreLink) :
    (resolve fs r link .rbd).value =
      match (rbdDevices fs r).value with
      | .error f => .error f
      | .ok devices => (matchRbd fs r link devices).value := by
  simp only [resolve, Logged.value_bind]
  cases (rbdDevices fs r).value <;> rfl

/-- Whether an identity is of a kind and begins with the name of the core directory for a link. -/
structure Identifies (link : BackstoreLink) (kind : BackstoreKind) (i : Identity) : Prop where
  ofKind : i.kind = kind
  labels : ∃ rest, i.labelValues = directoryName kind link :: rest

/-- Everything that resolving can come to. A LUN is identified as one of the kind that it is resolved as; or
    it has no counterpart, which only an RBD image and a RAM disk can be without; or an entry cannot be read; or a
    device number cannot. -/
theorem resolve_cases (fs : Sysfs) (r : Roots) (link : BackstoreLink) (kind : BackstoreKind) :
    (∃ i : Identity, (resolve fs r link kind).value = .ok (some i) ∧ Identifies link kind i) ∨
    ((resolve fs r link kind).value = .ok none ∧ (kind = .rbd ∨ kind = .rdmcp)) ∨
    (∃ f, (resolve fs r link kind).value = .error (.lookup f)) ∨
    (∃ f names, kind = .rbd ∧ fs.list r.rbdDevices = .ok names ∧ deviceIds names = .error f ∧
      (resolve fs r link kind).value = .error (.deviceNumber f)) := by
  cases kind with
  | fileio =>
    simp only [resolve, Logged.value_pure]
    cases readUdevPath fs r BackstoreKind.fileio.dirName link.number link.object with
    | error f => exact Or.inr (Or.inr (Or.inl ⟨f, rfl⟩))
    | ok path => exact Or.inl ⟨_, rfl, rfl, _, rfl⟩
  | iblock =>
    simp only [resolve, Logged.value_pure]
    cases readUdevPath fs r BackstoreKind.iblock.dirName link.number link.object with
    | error f => exact Or.inr (Or.inr (Or.inl ⟨f, rfl⟩))
    | ok path => exact Or.inl ⟨_, rfl, rfl, _, rfl⟩
  | rbd =>
    rw [value_resolve_rbd, value_rbdDevices]
    -- the numbers of the devices are read first, then the devices, and then one of them is matched
    split
    · next f hf =>
      split at hf
      · cases hf
      · next names hl =>
        split at hf
        · next g hg =>
          cases hf
          exact Or.inr (Or.inr (Or.inr ⟨g, names, rfl, hl, hg, rfl⟩))
        · next ids _ =>
          cases hd : readDevices fs r ids with
          | error g =>
            rw [hd] at hf
            cases hf
            exact Or.inr (Or.inr (Or.inl ⟨g, rfl⟩))
          | ok devices =>
            rw [hd] at hf
            cases hf
    · next devices _ =>
      rw [value_matchRbd]
      split
      · exact Or.inr (Or.inl ⟨rfl, Or.inl rfl⟩)
      · split
        · exact Or.inl ⟨_, rfl, rfl, _, rfl⟩
        · exact Or.inr (Or.inr (Or.inl ⟨_, rfl⟩))
  | rdmcp =>
    simp only [resolve]
    split
    · exact Or.inl ⟨_, rfl, rfl, _, rfl⟩
    · exact Or.inr (Or.inl ⟨rfl, Or.inr trivial⟩)

theorem resolve_identifies {fs : Sysfs} {r : Roots} {link : BackstoreLink} {kind : BackstoreKind} {i : Identity}
    (h : (resolve fs r link kind).value = .ok (some i)) : Identifies link kind i := by
  rcases resolve_cases fs r link kind with ⟨j, hj, found⟩ | ⟨hn, _⟩ | ⟨f, hf⟩ | ⟨f, _, _, _, _, hf⟩
  · cases h.symm.trans hj
    exact found
  · cases h.symm.trans hn
  · cases h.symm.trans hf
  · cases h.symm.trans hf

theorem resolve_kind {fs : Sysfs} {r : Roots} {link : BackstoreLink} {kind : BackstoreKind} {i : Identity}
    (h : (resolve fs r link kind).value = .ok (some i)) : i.kind = kind := (resolve_identifies h).ofKind

/-- With decimal device names no LUN fails to be resolved for a device number. -/
theorem resolve_ne_deviceNumber {t : FileTree} (legal : t.Legal) {r : Roots} (decimal : t.DecimalIds r)
    (link : BackstoreLink) (kind : BackstoreKind) (f : Text.NumeralFault) :
    (resolve t.sysfs r link kind).value ≠ .error (.deviceNumber f) := by
  intro h
  rcases resolve_cases t.sysfs r link kind with ⟨j, hj, _⟩ | ⟨hn, _⟩ | ⟨g, hg⟩ | ⟨g, names, _, hl, hids, _⟩
  · rw [h] at hj
    cases hj
  · rw [h] at hn
    cases hn
  · rw [h] at hg
    cases hg
  · obtain ⟨ids, hok⟩ := deviceIds_ok legal decimal hl
    rw [hok] at hids
    cases hids

end Backstore
end LunMetrics
