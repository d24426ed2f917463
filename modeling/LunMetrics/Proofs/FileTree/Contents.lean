import LunMetrics.FileTree.Snapshot
import LunMetrics.Proofs.Outcome
import LunMetrics.Sysfs

/- Where a path leads, and what is found there. In a tree that begins at the root it is all the same whether a path has a
   slash before it (`locate_slash`). What a path leads to can be read or listed, or fails to be in its own way, if and
   only if it is there to be read (`isThere_iff_read`, `isThere_iff_list`). What a file holds is of no consequence for
   where a path leads: two trees that differ at most in the contents of files (`Alike`) lead every path to the same place
   (`locate_alike`), since a walk looks at directories and links only. So new bytes that are put into the file of a path
   (`store`) move nothing (`store_alike`) and are found again (`target?_store`). -/
namespace LunMetrics.FileTree

/-! The root. -/

theorem steps_slash {path : Text} (named : path ≠ []) : steps ('/' :: path) = steps path := by
  have cut : ('/' :: path).splitOn '/' = [] :: path.splitOn '/' := rfl
  simp [steps, cut, List.getLast?_cons_of_ne_nil named]

theorem locate_slash {t : FileTree} (root : t.atRoot = true) (follow : Bool) {path : Text} (named : path ≠ [])
    (short : Utf8.size path + 1 < pathLimit) : t.locate follow ('/' :: path) = t.locate follow path := by
  have size : Utf8.size ('/' :: path) = Utf8.size path + 1 := by
    have slash : (String.utf8EncodeChar '/').length = 1 := rfl
    simp only [Utf8.size, Utf8.encode, List.flatMap_cons, List.length_append, slash]
    omega
  have here : t.start (.inside []) path = .inside [] := by simp [start, FileTree.root, root]
  have there : t.start (.inside []) ('/' :: path) = .inside [] := by simp [start, FileTree.root, root]
  have long : ¬ pathLimit ≤ Utf8.size path := by omega
  have long' : ¬ pathLimit ≤ Utf8.size path + 1 := by omega
  simp only [locate, size, here, there, steps_slash named, long, long', if_false]
  simp [named]

example : (ofLines ["d\t/sys/kernel/config/target/iscsi/iqn.a".toList]).list "/sys/kernel/config/target/iscsi".toList =
    .ok ["iqn.a".toList] := rfl

/-! What may be read. -/

theorem isThere_iff_read {t : FileTree} {path : Text} :
    t.sysfs.isThere path = true ↔ t.read path ≠ .error (.unreadable path) := by
  simp only [sysfs, read]
  cases t.target? path with
  | none => simp
  | some e =>
    cases e with
    | file bytes => simp [Except.mapError_eq_error_iff, Entry.isReadable]
    | _ => simp [Entry.isReadable]

theorem isThere_iff_list {t : FileTree} {path : Text} :
    t.sysfs.isThere path = true ↔ t.list path ≠ .error (.unlistable path) := by
  simp only [sysfs, list, target?]
  cases t.locate true path with
  | error f => simp [Except.toOption]
  | ok p =>
    simp only [Except.toOption, Option.bind_some]
    cases t.entry? p with
    | none => simp
    | some e => cases e <;> simp [Entry.isReadable]

/-! Trees that differ in the contents of files. -/

/-- Whether two trees differ at most in what their files hold. -/
structure Alike (t u : FileTree) : Prop where
  atRoot : t.atRoot = u.atRoot
  entry : ∀ p, t.entry? p = u.entry? p ∨
    ∃ bytes bytes', t.entry? p = some (.file bytes) ∧ u.entry? p = some (.file bytes')

section
variable {t u : FileTree} (alike : t.Alike u)
include alike

theorem Alike.root : t.root = u.root := by
  simp only [FileTree.root, alike.atRoot]

theorem Alike.parent (p : Place) : t.parent p = u.parent p := by
  cases p with
  | outside => rfl
  | inside l =>
    cases l with
    | nil => exact alike.root
    | cons name l => rfl

theorem Alike.start (dir : Place) (path : Text) : t.start dir path = u.start dir path := by
  simp only [FileTree.start, alike.root]

theorem Alike.isDirectory (p : Place) :
    (t.entry? p).any Entry.isDirectory = (u.entry? p).any Entry.isDirectory := by
  rcases alike.entry p with same | ⟨_, _, ht, hu⟩
  · rw [same]
  · rw [ht, hu]
    rfl

theorem stretch_alike (follow : Bool) (cs : List Text) (p : Place) :
    stretch t follow p cs = stretch u follow p cs := by
  induction cs generalizing p with
  | nil => rfl
  | cons c cs ih =>
    simp only [stretch, ih, alike.isDirectory p, alike.parent p]
    cases p.child? c with
    | none => rfl
    | some q =>
      rcases alike.entry q with same | ⟨_, _, ht, hu⟩
      · simp only [same]
      · simp only [ht, hu]

theorem walk_alike (follow : Bool) (links : Nat) (p : Place) (cs : List Text) :
    walk t follow links p cs = walk u follow links p cs := by
  induction links generalizing p cs with
  | zero => simp only [walk, stretch_alike alike]
  | succ links ih => simp only [walk, stretch_alike alike, alike.start, ih]

theorem locate_alike (follow : Bool) (path : Text) : t.locate follow path = u.locate follow path := by
  simp only [locate, walk_alike alike, alike.start]

end

/-! New contents for a file. -/

theorem target?_eq_some_iff {t : FileTree} {path : Text} {e : Entry} :
    t.target? path = some e ↔ ∃ p, t.locate true path = .ok p ∧ t.entry? p = some e := by
  unfold target?
  cases t.locate true path with
  | error f => simp [Except.toOption]
  | ok p => simp [Except.toOption]

theorem exists_location {t : FileTree} {p : Place} {bytes : List UInt8} (h : t.entry? p = some (.file bytes)) :
    ∃ l, p = .inside l ∧ l ≠ [] ∧ t.at? l = some (.file bytes) := by
  cases p with
  | outside => cases h
  | inside l =>
    refine ⟨l, rfl, ?_, h⟩
    rintro rfl
    cases h

theorem at?_put {t : FileTree} {l : Location} (named : l ≠ []) (there : (t.at? l).isSome) (e : Entry)
    (l' : Location) : (t.put l e).at? l' = if l' = l then some e else t.at? l' := by
  by_cases root : l' = []
  · simp [at?, root, Ne.symm named]
  · have same : ((fun x => decide (x.1 = l')) ∘ fun x => if x.1 = l then (l, e) else x) =
        fun x : Location × Entry => decide (x.1 = l') := by
      funext x
      by_cases h : x.1 = l <;> simp [h]
    rw [at?, if_neg named] at there
    simp only [put, if_neg named, at?, if_neg root, there, if_true, List.find?_map, same, Option.map_map]
    by_cases here : l' = l
    · rw [if_pos here, here]
      cases found : t.entries.find? fun x => decide (x.1 = l) with
      | none => simp [found] at there
      | some x =>
        have hx : x.1 = l := by simpa using List.find?_some found
        simp [hx]
    · rw [if_neg here]
      cases found : t.entries.find? fun x => decide (x.1 = l') with
      | none => rfl
      | some x =>
        have hx : x.1 = l' := by simpa using List.find?_some found
        simp [hx, here]

def store (t : FileTree) (path : Text) (bytes : List UInt8) : FileTree :=
  match t.locate true path with
  | .ok (.inside l) => t.put l (.file bytes)
  | _ => t

theorem atRoot_put (t : FileTree) (l : Location) (e : Entry) : (t.put l e).atRoot = t.atRoot := by
  unfold put
  split
  · rfl
  · split <;> rfl

theorem atRoot_store (t : FileTree) (path : Text) (bytes : List UInt8) : (t.store path bytes).atRoot = t.atRoot := by
  unfold store
  split
  · exact atRoot_put t _ _
  · rfl

theorem entry?_store {t : FileTree} {path : Text} {p : Place} {bytes : List UInt8} (here : t.locate true path = .ok p)
    (file : t.entry? p = some (.file bytes)) (bytes' : List UInt8) (q : Place) :
    entry? (t.store path bytes') q = if q = p then some (.file bytes') else t.entry? q := by
  obtain ⟨l, rfl, named, hl⟩ := exists_location file
  unfold store
  rw [here]
  cases q with
  | outside => rfl
  | inside l' =>
    show (t.put l (.file bytes')).at? l' = _
    rw [at?_put named (by rw [hl]; rfl)]
    simp only [Place.inside.injEq, entry?]

theorem store_alike {t : FileTree} {path : Text} {bytes : List UInt8} (file : t.target? path = some (.file bytes))
    (bytes' : List UInt8) : t.Alike (t.store path bytes') where
  atRoot := (atRoot_store t path bytes').symm
  entry q := by
    obtain ⟨p, here, hp⟩ := target?_eq_some_iff.1 file
    rw [entry?_store here hp]
    split
    · next e => exact Or.inr ⟨bytes, bytes', e ▸ hp, rfl⟩
    · exact Or.inl rfl

theorem target?_store {t : FileTree} {path : Text} {bytes : List UInt8} (file : t.target? path = some (.file bytes))
    (bytes' : List UInt8) : (t.store path bytes').target? path = some (.file bytes') := by
  obtain ⟨p, here, hp⟩ := target?_eq_some_iff.1 file
  refine target?_eq_some_iff.2 ⟨p, ?_, ?_⟩
  · rw [← locate_alike (store_alike file bytes')]
    exact here
  · rw [entry?_store here hp, if_pos rfl]

end LunMetrics.FileTree
