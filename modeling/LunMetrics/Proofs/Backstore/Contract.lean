import LunMetrics.FileTree.Edit
import LunMetrics.Proofs.Backstore.Resolution
import LunMetrics.Proofs.Topology.Exports

/- What resolving promises: an identity of the kind that is asked for, or nothing where a kind knows objects without
   a counterpart, or a lookup fault (`Contract`). Device directories are picked by the weaker test for digits and
   ordered by the number that they denote, so a name of digits that are not all decimal (`isOddNumeral`), such as a
   superscript, breaks the promise.

   1. Such a name denotes no number (`natural_odd`), and the least of the device tree is the one at fault
      (`deviceIds_odd`);
   2. resolving keeps its promise for all kinds but `rbd`, and for `rbd` exactly if no device directory has such a
      name; otherwise neither the devices nor any LUN of this kind are found out
      (`resolve_contract_iff_decimal`). -/
namespace LunMetrics

/-! Numerals that are none. -/

namespace Text

/-- Whether a text is made of digits that are not all decimal. -/
def isOddNumeral (t : Text) : Bool := areDigits t && !t.all fun c => (decimal? c).isSome

theorem areDigits_of_odd {t : Text} (h : isOddNumeral t = true) : areDigits t = true := by
  unfold isOddNumeral at h
  rw [Bool.and_eq_true] at h
  exact h.1

theorem isOddNumeral_eq_false_iff {t : Text} (digits : areDigits t = true) :
    isOddNumeral t = false ↔ ∀ c ∈ t, (decimal? c).isSome = true := by
  unfold isOddNumeral
  rw [digits, Bool.true_and, Bool.not_eq_false', List.all_eq_true]

theorem natural_odd {t : Text} (h : isOddNumeral t = true) (short : t.length ≤ maxDigits) :
    natural t = .error (.notDecimal t) := by
  -- a digit that is not decimal ends the run of decimal ones
  have hlt : (t.takeWhile fun c => (decimal? c).isSome).length < t.length := by
    apply Nat.lt_of_not_le
    intro all
    rw [(isOddNumeral_eq_false_iff (areDigits_of_odd h)).2 (decimal_of_leading all)] at h
    cases h
  unfold natural
  simp only
  rw [if_neg (by omega), if_pos]
  simp [hlt]

end Text

namespace FileTree

/-- Whether the device tree has a directory whose name is made of digits and denotes no number. -/
structure HoldsOdd (t : FileTree) (r : Roots) (name : Text) : Prop where
  held : t.Holds r.rbdDevices name
  odd : Text.isOddNumeral name = true

/-- Whether a name is the first of such names in code-point order. -/
structure LeastOdd (t : FileTree) (r : Roots) (name : Text) : Prop extends t.HoldsOdd r name where
  least : ∀ name', t.HoldsOdd r name' → name' = name ∨ Text.Before name name'

variable {t : FileTree} {r : Roots}

theorem decimalIds_iff : t.DecimalIds r ↔ ∀ name, ¬ t.HoldsOdd r name := by
  unfold DecimalIds
  refine forall_congr' fun name => ?_
  refine ⟨?_, ?_⟩
  · intro h odd
    have digits := Text.areDigits_of_odd odd.odd
    have decimal := (Text.isOddNumeral_eq_false_iff digits).2 (h odd.held digits)
    rw [odd.odd] at decimal
    cases decimal
  · intro h held digits
    rw [← Text.isOddNumeral_eq_false_iff digits, Bool.eq_false_iff]
    intro odd
    exact h ⟨held, odd⟩

theorem not_hidden_of_digits {name : Text} (h : Text.areDigits name = true) : isHidden name = false := by
  unfold isHidden
  rw [decide_eq_false_iff_not]
  intro hd
  exact Text.not_mem_of_areDigits h (by decide) (List.mem_of_head? hd)

/-- The least of the names at fault is the first one in the listing. -/
theorem leastOdd_iff (legal : t.Legal) {names : List Text} (h : t.list r.rbdDevices = .ok names) (name : Text) :
    t.LeastOdd r name ↔ names.find? Text.isOddNumeral = some name := by
  have listed : ∀ n, n ∈ names ∧ Text.isOddNumeral n = true ↔ t.HoldsOdd r n := by
    intro n
    rw [mem_list_iff h]
    refine ⟨?_, ?_⟩
    · intro hn
      exact ⟨hn.1.1, hn.2⟩
    · intro hn
      exact ⟨⟨hn.held, not_hidden_of_digits (Text.areDigits_of_odd hn.odd)⟩, hn.odd⟩
  rw [find?_eq_some_iff_least (fun _ _ h => h.asymm) Text.isOddNumeral name (list_before legal h)]
  refine ⟨?_, ?_⟩
  · intro hl
    exact ⟨(listed name).2 hl.toHoldsOdd, fun n hn => hl.least n ((listed n).1 hn)⟩
  · intro hl
    exact ⟨(listed name).1 hl.has, fun n hn => hl.least n ((listed n).2 hn)⟩

theorem HoldsOdd.exists_least (legal : t.Legal) {name : Text} (h : t.HoldsOdd r name) : ∃ least, t.LeastOdd r least := by
  obtain ⟨names, hl⟩ := h.held.listed
  have hm : name ∈ names := (mem_list_iff hl name).2 ⟨h.held, not_hidden_of_digits (Text.areDigits_of_odd h.odd)⟩
  have found := List.find?_isSome.2 ⟨name, hm, h.odd⟩
  obtain ⟨least, hf⟩ := Option.isSome_iff_exists.1 found
  exact ⟨least, (leastOdd_iff legal hl least).2 hf⟩

end FileTree

namespace Backstore

/-! Device directories. -/

theorem numbered_odd {name : Text} : ∀ ids : List Text, (∀ id ∈ ids, Text.areDigits id = true) →
    (∀ id ∈ ids, id.length ≤ Text.maxDigits) → ids.find? Text.isOddNumeral = some name →
      numbered ids = .error (.notDecimal name)
  | [], _, _, h => by cases h
  | id :: ids, digits, short, h => by
    rw [List.find?_cons] at h
    have hs := short id List.mem_cons_self
    cases ho : Text.isOddNumeral id with
    | true =>
      rw [ho] at h
      cases h
      rw [numbered, Text.natural_odd ho hs]
      rfl
    | false =>
      rw [ho] at h
      have ih := numbered_odd ids (fun i hi => digits i (List.mem_cons_of_mem id hi))
        (fun i hi => short i (List.mem_cons_of_mem id hi)) h
      -- this one denotes a number, so it is a later one that does not
      have hd := digits id List.mem_cons_self
      have decimal := (Text.isOddNumeral_eq_false_iff hd).1 ho
      have notEmpty : id ≠ [] := by
        intro e
        rw [e] at hd
        cases hd
      obtain ⟨n, hn⟩ := Text.natural_ok notEmpty decimal hs
      rw [numbered, hn, ih]
      rfl

theorem deviceIds_odd {t : FileTree} (legal : t.Legal) {r : Roots} {names : List Text}
    (h : t.list r.rbdDevices = .ok names) {name : Text} (least : t.LeastOdd r name) :
    deviceIds names = .error (.notDecimal name) := by
  have digits : ∀ id ∈ names.filter Text.areDigits, Text.areDigits id = true := fun id hid => (List.mem_filter.1 hid).2
  have short : ∀ id ∈ names.filter Text.areDigits, id.length ≤ Text.maxDigits := by
    intro id hid
    have held := ((FileTree.mem_list_iff h id).1 (List.mem_filter.1 hid).1).1
    have size : id.length ≤ FileTree.maxName :=
      Nat.le_trans (FileTree.length_le_size id) (held.isName legal).short
    exact Nat.le_trans size (by decide)
  have first : (names.filter Text.areDigits).find? Text.isOddNumeral = some name := by
    rw [List.find?_filter, ← (FileTree.leastOdd_iff legal h name).1 least]
    congr 1
    funext n
    rw [Bool.eq_iff_iff, decide_eq_true_eq]
    exact ⟨And.right, fun ho => ⟨Text.areDigits_of_odd ho, ho⟩⟩
  unfold deviceIds
  rw [numbered_odd _ digits short first]
  rfl

/-! The promise. -/

/-- What resolving a LUN as one of a kind promises to come to. -/
inductive Contract (kind : BackstoreKind) : Except ResolveFault (Option Identity) → Prop
  | identified {i : Identity} : i.kind = kind → Contract kind (.ok (some i))
  | absent : kind = .rbd ∨ kind = .rdmcp → Contract kind (.ok none)
  | lookup (f : LookupFault) : Contract kind (.error (.lookup f))

/-- The promise is broken by a device number alone. -/
theorem contract_iff (fs : Sysfs) (r : Roots) (link : BackstoreLink) (kind : BackstoreKind) :
    Contract kind (resolve fs r link kind).value ↔
      ∀ f, (resolve fs r link kind).value ≠ .error (.deviceNumber f) := by
  refine ⟨?_, ?_⟩
  · intro h f hf
    rw [hf] at h
    cases h
  · intro h
    rcases resolve_cases fs r link kind with ⟨i, hi, found⟩ | ⟨hn, hk⟩ | ⟨f, hf⟩ | ⟨f, _, _, _, _, hf⟩
    · rw [hi]
      exact Contract.identified found.ofKind
    · rw [hn]
      exact Contract.absent hk
    · rw [hf]
      exact Contract.lookup f
    · exact absurd hf (h f)

section
variable {t : FileTree} {r : Roots}

theorem rbdDevices_of_decimal (legal : t.Legal) (decimal : t.DecimalIds r) :
    (∃ devices, (rbdDevices t.sysfs r).value = .ok devices) ∨
      ∃ f, (rbdDevices t.sysfs r).value = .error (.lookup f) := by
  rw [value_rbdDevices, FileTree.sysfs_list]
  cases hl : t.list r.rbdDevices with
  | error f => exact Or.inl ⟨[], rfl⟩
  | ok names =>
    obtain ⟨ids, hids⟩ := deviceIds_ok legal decimal hl
    simp only [hids]
    cases readDevices t.sysfs r ids with
    | error f => exact Or.inr ⟨f, rfl⟩
    | ok devices => exact Or.inl ⟨devices, rfl⟩

theorem rbdDevices_of_odd (legal : t.Legal) {name : Text} (least : t.LeastOdd r name) :
    (rbdDevices t.sysfs r).value = .error (.deviceNumber (.notDecimal name)) := by
  obtain ⟨names, hl⟩ := least.held.listed
  rw [value_rbdDevices, FileTree.sysfs_list, hl]
  simp only [deviceIds_odd legal hl least]

theorem resolve_rbd_of_error {fs : Sysfs} {f : ResolveFault} (h : (rbdDevices fs r).value = .error f)
    (link : BackstoreLink) : (resolve fs r link .rbd).value = .error f := by
  rw [value_resolve_rbd, h]

/-- Resolving keeps its promise for every link exactly if the kind is not `rbd` or no device directory has a name
    of digits that are not all decimal, and then the devices are listed unless one cannot be read. If there is such
    a directory, the least one is at fault, whether the devices are listed or a LUN is resolved. -/
theorem resolve_contract_iff_decimal (legal : t.Legal) (r : Roots) :
    (∀ link kind, Contract kind (resolve t.sysfs r link kind).value ↔ (kind = .rbd → ∀ name, ¬ t.HoldsOdd r name)) ∧
    ((∀ name, ¬ t.HoldsOdd r name) →
      (∃ devices, (rbdDevices t.sysfs r).value = .ok devices) ∨
        ∃ f, (rbdDevices t.sysfs r).value = .error (.lookup f)) ∧
    ∀ name, t.HoldsOdd r name → ∃ least, t.LeastOdd r least ∧
      (rbdDevices t.sysfs r).value = .error (.deviceNumber (.notDecimal least)) ∧
      ∀ link, (resolve t.sysfs r link .rbd).value = .error (.deviceNumber (.notDecimal least)) := by
  refine ⟨?_, ?_, ?_⟩
  · intro link kind
    rw [contract_iff]
    refine ⟨?_, ?_⟩
    · intro kept hk name odd
      subst hk
      obtain ⟨least, hl⟩ := odd.exists_least legal
      exact kept _ (resolve_rbd_of_error (rbdDevices_of_odd legal hl) link)
    · intro decimal f hf
      rcases resolve_cases t.sysfs r link kind with ⟨i, hi, _⟩ | ⟨hn, _⟩ | ⟨g, hg⟩ | ⟨_, _, rfl, _⟩
      · cases hf.symm.trans hi
      · cases hf.symm.trans hn
      · cases hf.symm.trans hg
      · exact resolve_ne_deviceNumber legal (FileTree.decimalIds_iff.2 (decimal rfl)) link .rbd f hf
  · intro none_odd
    exact rbdDevices_of_decimal legal (FileTree.decimalIds_iff.2 none_odd)
  · intro name odd
    obtain ⟨least, hl⟩ := odd.exists_least legal
    have devices := rbdDevices_of_odd legal hl
    exact ⟨least, hl, devices, resolve_rbd_of_error devices⟩

end

/-! A device directory that is named by a superscript. -/

/-- The small tree with pool and image of its device, and with the storage object made of them. -/
def mapped : FileTree :=
  let device := ["s".toList, "devices".toList, "rbd".toList, "0".toList]
  let dir := ["c".toList, "target".toList, "core".toList, "rbd_0".toList]
  (((FileTree.specimen.put (device ++ [Layout.pool]) (.file [0x70, 0x0a])).put (device ++ [Layout.image])
    (.file [0x69, 0x0a])).put dir .directory).put (dir ++ ["p-i".toList]) .directory

/-- The same with a second device directory, named by a superscript two. -/
def superscript : FileTree := mapped.put ["s".toList, "devices".toList, "rbd".toList, ['\u00b2']] .directory

theorem mapped_legal : mapped.Legal := by decide +kernel

theorem superscript_legal : superscript.Legal := by decide +kernel

theorem mapped_decimal : mapped.DecimalIds Roots.specimen :=
  (FileTree.asciiIds_of_names (p := .inside ["s".toList, "devices".toList, "rbd".toList]) rfl rfl).decimal

theorem superscript_holdsOdd : superscript.HoldsOdd Roots.specimen ['\u00b2'] where
  held := ⟨.inside ["s".toList, "devices".toList, "rbd".toList], rfl, rfl, by decide⟩
  odd := by decide

def mappedLink : BackstoreLink := ⟨"rbd".toList, "0".toList, "p-i".toList⟩

example : (resolve mapped.sysfs Roots.specimen mappedLink .rbd).value =
    .ok (some (.rbd "rbd_0".toList "p".toList "i".toList)) := rfl

/-- The promise is kept before the second directory is there, and broken after it. -/
theorem mapped_keeps_superscript_breaks :
    Contract .rbd (resolve mapped.sysfs Roots.specimen mappedLink .rbd).value ∧
      ((∃ devices, (rbdDevices mapped.sysfs Roots.specimen).value = .ok devices) ∨
        ∃ f, (rbdDevices mapped.sysfs Roots.specimen).value = .error (.lookup f)) ∧
      ∃ least, superscript.LeastOdd Roots.specimen least ∧
        (rbdDevices superscript.sysfs Roots.specimen).value = .error (.deviceNumber (.notDecimal least)) ∧
        ∀ link, (resolve superscript.sysfs Roots.specimen link .rbd).value =
          .error (.deviceNumber (.notDecimal least)) := by
  have none_odd := FileTree.decimalIds_iff.1 mapped_decimal
  refine ⟨?_, ?_, ?_⟩
  · exact ((resolve_contract_iff_decimal mapped_legal Roots.specimen).1 mappedLink .rbd).2 fun _ => none_odd
  · exact (resolve_contract_iff_decimal mapped_legal Roots.specimen).2.1 none_odd
  · exact (resolve_contract_iff_decimal superscript_legal Roots.specimen).2.2 _ superscript_holdsOdd

end Backstore
end LunMetrics
