import LunMetrics.Proofs.Cycle.Isolation
import LunMetrics.Proofs.Cycle.Plan
import LunMetrics.Proofs.Number.Rounding

/- Two cycles between which nothing but counters has changed, and no counter has become smaller (`Sysfs.Grows`). The
   file systems are compared as a cycle sees them:

   1. nothing but the reading of counters asks about the path of a counter (`Topology.Asks.not_counter`,
      `Backstore.Asks.not_counter`), so both walks yield the same LUNs, which are resolved alike;
   2. larger counters are larger doubles, and if they are finite so are the smaller ones (`Emission.values?_mono`), so
      a LUN offers the same samples with values that are no smaller, or nothing in both cases (`offer_grows`);
   3. then so do the plans (`planFrom_grows`), and the cycles where nothing is refused
      (`growing_counters_never_fall`). -/
namespace LunMetrics

/-! Counters. -/

namespace Statistics

/-- Whether a path is that of a counter of some LUN. -/
def IsCounter (r : Roots) (path : Text) : Prop := ∃ iqn tpgt lun, Asks r iqn tpgt lun path

/-- Two readings of counters, of which the second is no smaller or neither succeeds. -/
inductive Grown {α : Type} [LE α] : Except CounterFault α → Except CounterFault α → Prop
  | unread (f f' : CounterFault) : Grown (.error f) (.error f')
  | read {m n : α} : m ≤ n → Grown (.ok m) (.ok n)

end Statistics

/-- Whether two file systems agree on all ways down from the three trees but those to counters, and no counter is
    smaller in the second one. -/
structure Sysfs.Grows (fs fs' : Sysfs) (r : Roots) : Prop where
  elsewhere : ∀ path, r.Plain path → ¬ Statistics.IsCounter r path → fs.AgreeAt fs' path
  counters : ∀ path, r.Plain path → Statistics.IsCounter r path → Statistics.Grown (fs.natural path) (fs'.natural path)

/-! Paths of counters. -/

section
variable {r : Roots} {path dir name : Text}

theorem Statistics.IsCounter.ends (h : IsCounter r path) :
    ∃ dir, Path.Open dir ∧ ∃ name ∈ [Layout.readUnits, Layout.writeUnits, Layout.commands],
      path = Path.join (Path.join dir "scsi_tgt_port".toList) name := by
  obtain ⟨iqn, tpgt, lun, @⟨name, hn⟩⟩ := h
  refine ⟨Path.join (r.lun iqn tpgt lun) "statistics".toList, Path.Open.join _ (by decide), name, hn, ?_⟩
  rw [r.statistics_eq]
  rfl

theorem not_counter_of_name {start : Text} (ho : Path.Open dir) (hn : Path.IsPart name) (begins : start <+: name)
    (other : ∀ n ∈ [Layout.readUnits, Layout.writeUnits, Layout.commands], ¬ start <+: n) :
    ¬ Statistics.IsCounter r (Path.join dir name) := by
  have parts : ∀ n ∈ [Layout.readUnits, Layout.writeUnits, Layout.commands], Path.IsPart n := by decide
  intro h
  obtain ⟨top, _, counter, hc, e⟩ := h.ends
  obtain ⟨_, rfl⟩ := Path.join_inj ho (Path.Open.join top (by decide)) hn (parts counter hc) e
  exact other name hc begins

theorem not_counter_of_parent {parent start : Text} (ho : Path.Open dir) (hp : Path.IsPart parent)
    (hn : Path.IsPart name) (begins : start <+: parent) (other : ¬ start <+: "scsi_tgt_port".toList) :
    ¬ Statistics.IsCounter r (Path.join (Path.join dir parent) name) := by
  have parts : ∀ n ∈ [Layout.readUnits, Layout.writeUnits, Layout.commands], Path.IsPart n := by decide
  intro h
  obtain ⟨top, htop, counter, hc, e⟩ := h.ends
  obtain ⟨below, _⟩ := Path.join_inj (Path.Open.join dir hp) (Path.Open.join top (by decide)) hn (parts counter hc) e
  obtain ⟨_, rfl⟩ := Path.join_inj ho htop hp (by decide) below
  exact other begins

/-- No path that is asked about to read the topology is that of a counter. -/
theorem Topology.Asks.not_counter {fs : Sysfs} (named : fs.Named) (h : Topology.Asks fs r path) :
    ¬ Statistics.IsCounter r path := by
  cases h with
  | root =>
    rw [r.iscsi_eq_join]
    exact not_counter_of_name (Path.Open.join _ (by decide)) (by decide) (List.prefix_refl _) (by decide)
  | target h =>
    exact not_counter_of_name r.open_iscsi (named _ _ h.listed).toIsPart (List.isPrefixOf_iff_prefix.1 h.named)
      (by decide)
  | enable h =>
    exact not_counter_of_name (Path.Open.join _ (named _ _ h.listed).toIsPart) (by decide) (List.prefix_refl _)
      (by decide)
  | luns h =>
    exact not_counter_of_name (Path.Open.join _ (named _ _ h.listed).toIsPart) (by decide) (List.prefix_refl _)
      (by decide)
  | lun h =>
    exact not_counter_of_name (Path.Open.join _ (by decide)) (named _ _ h.listed).toIsPart (List.prefix_append _ _)
      (by decide)
  | entry h hn =>
    exact not_counter_of_parent (Path.Open.join _ (by decide)) (named _ _ h.listed).toIsPart (named _ _ hn).toIsPart
      (List.prefix_append _ _) (by decide)

theorem Backstore.Asks.not_counter {fs : Sysfs} {link : BackstoreLink} (hnumber : '/' ∉ link.number)
    (hobject : Path.IsPlain link.object) {kind : BackstoreKind} (h : Backstore.Asks fs r link kind path) :
    ¬ Statistics.IsCounter r path := by
  have directory := (kind.isPlain_directory hnumber).toIsPart
  cases h with
  | udevPath =>
    exact not_counter_of_name (Path.Open.join _ hobject.toIsPart) (by decide) (List.prefix_refl _) (by decide)
  | object =>
    have other : ¬ kind.dirName <+: "scsi_tgt_port".toList := by cases kind <;> decide
    exact not_counter_of_parent r.open_core directory hobject.toIsPart (List.prefix_append _ _) other
  | devices =>
    rw [r.rbdDevices_eq_join]
    exact not_counter_of_name (Path.Open.join _ (by decide)) (by decide) (List.prefix_refl _) (by decide)
  | pool _ digits =>
    exact not_counter_of_name (Path.Open.join _ (isPlain_of_areDigits digits).toIsPart) (by decide)
      (List.prefix_refl _) (by decide)
  | image _ digits =>
    exact not_counter_of_name (Path.Open.join _ (isPlain_of_areDigits digits).toIsPart) (by decide)
      (List.prefix_refl _) (by decide)

end

/-! Readings of a LUN. -/

namespace Statistics

section
variable {fs fs' : Sysfs} {r : Roots}

theorem Grown.pair {a a' : Except CounterFault Nat} {β : Type} [LE β] {b b' : Except CounterFault β} (ha : Grown a a')
    (hb : Grown b b') :
    Grown (a.bind fun m => b.map fun n => (m, n)) (a'.bind fun m => b'.map fun n => (m, n)) := by
  cases ha with
  | unread f f' => exact Grown.unread f f'
  | read hm =>
    cases hb with
    | unread f f' => exact Grown.unread f f'
    | read hn => exact Grown.read (Prod.mk_le_mk.2 ⟨hm, hn⟩)

/-- The three counters, as two pairs. -/
theorem readIn_eq (fs : Sysfs) (dir : Text) :
    readIn fs dir =
      (fs.natural (Path.join dir Layout.readUnits)).bind fun read =>
        ((fs.natural (Path.join dir Layout.writeUnits)).bind fun write =>
          (fs.natural (Path.join dir Layout.commands)).map fun ops => (write, ops)).map fun rest => (read, rest) := by
  unfold readIn
  cases fs.natural (Path.join dir Layout.readUnits) with
  | error f => rfl
  | ok m =>
    cases fs.natural (Path.join dir Layout.writeUnits) with
    | error f => rfl
    | ok n => cases fs.natural (Path.join dir Layout.commands) <;> rfl

theorem readIn_grown {dir : Text} (h : ∀ name ∈ [Layout.readUnits, Layout.writeUnits, Layout.commands],
    Grown (fs.natural (Path.join dir name)) (fs'.natural (Path.join dir name))) :
    Grown (readIn fs dir) (readIn fs' dir) := by
  rw [readIn_eq, readIn_eq]
  exact (h Layout.readUnits (by simp)).pair ((h Layout.writeUnits (by simp)).pair (h Layout.commands (by simp)))

theorem read_grown {iqn tpgt lun : Text}
    (h : ∀ path, Asks r iqn tpgt lun path → Grown (fs.natural path) (fs'.natural path)) :
    (∃ f f', (read fs r iqn tpgt lun).value = .error f ∧ (read fs' r iqn tpgt lun).value = .error f') ∨
      ∃ m n : Nat × Nat × Nat, m ≤ n ∧ (read fs r iqn tpgt lun).value = .ok ⟨m.1, m.2.1, m.2.2⟩ ∧
        (read fs' r iqn tpgt lun).value = .ok ⟨n.1, n.2.1, n.2.2⟩ := by
  have grown : Grown (readIn fs (r.statistics iqn tpgt lun)) (readIn fs' (r.statistics iqn tpgt lun)) :=
    readIn_grown fun name hn => h _ (Asks.counter hn)
  unfold read
  generalize readIn fs (r.statistics iqn tpgt lun) = a, readIn fs' (r.statistics iqn tpgt lun) = a' at grown ⊢
  cases grown with
  | unread f f' => exact Or.inl ⟨_, _, rfl, rfl⟩
  | @read m n hmn => exact Or.inr ⟨m, n, hmn, rfl, rfl⟩

end

end Statistics

/-- Larger counters are larger doubles, and if these are finite, the smaller ones are. -/
theorem Emission.values?_mono {m n : Nat × Nat × Nat} (h : m ≤ n) {w : Values}
    (hw : values? ⟨n.1, n.2.1, n.2.2⟩ = some w) :
    ∃ v, values? ⟨m.1, m.2.1, m.2.2⟩ = some v ∧ ∀ c, v.get c ≤ w.get c := by
  obtain ⟨hreads, hwrites, hops⟩ := h
  obtain ⟨hr, hwr, ho⟩ := (values?_eq_some_iff _ w).1 hw
  obtain ⟨reads, hr', lr⟩ := Binary64.bytesOfUnits?_mono hreads hr
  obtain ⟨writes, hwr', lw⟩ := Binary64.bytesOfUnits?_mono hwrites hwr
  obtain ⟨ops, ho', lo⟩ := Binary64.ofInt?_mono hops ho
  refine ⟨⟨reads, writes, ops⟩, (values?_eq_some_iff _ _).2 ⟨hr', hwr', ho'⟩, ?_⟩
  · intro c
    cases c
    · exact lo
    · exact lr
    · exact lw

/-! Samples and plans. -/

/-- Whether two samples are of one metric and with the same labels, and the value of the second is no smaller. -/
structure Sample.Grows (y y' : Sample) : Prop where
  descriptor : y.descriptor = y'.descriptor
  kind : y.kind = y'.kind
  labels : y.labels = y'.labels
  value : y.value ≤ y'.value

namespace Cycle

/-- Whether a LUN contributes the same twice but for values that are no smaller, unless a counter has become too
    large for a double. -/
inductive OfferGrows : Except LunFault (Option (List Sample)) → Except LunFault (Option (List Sample)) → Prop
  | nothing : OfferGrows (.ok none) (.ok none)
  | samples {ys ys' : List Sample} : List.Forall₂ Sample.Grows ys ys' → OfferGrows (.ok (some ys)) (.ok (some ys'))
  | trouble (t t' : Trouble) : OfferGrows (.error (.trouble t)) (.error (.trouble t'))
  | fault (f : CycleFault) : OfferGrows (.error (.cycle f)) (.error (.cycle f))
  | overflow (o : Except LunFault (Option (List Sample))) : OfferGrows o (.error (.cycle .overflow))

section
variable {fs fs' : Sysfs} {x : Exporter}

theorem triple_grows (key : LunKey) (kind : BackstoreKind) (ns : Text) (i : Identity) {v w : Emission.Values}
    (h : ∀ c, v.get c ≤ w.get c) : List.Forall₂ Sample.Grows (triple key kind ns i v) (triple key kind ns i w) :=
  .cons ⟨rfl, rfl, rfl, h .read⟩ (.cons ⟨rfl, rfl, rfl, h .write⟩ (.cons ⟨rfl, rfl, rfl, h .iops⟩ .nil))

theorem offer_grows {key : LunKey} {kind : BackstoreKind}
    (backstore : fs.AgreeOn fs' (Backstore.Asks fs x.roots key.link kind))
    (counters : ∀ path, Statistics.Asks x.roots key.iqn key.tpgt key.lun path →
      Statistics.Grown (fs.natural path) (fs'.natural path)) :
    OfferGrows (offer fs x (key, kind)) (offer fs' x (key, kind)) := by
  have alike : (Backstore.resolve fs' x.roots key.link kind).value =
      (Backstore.resolve fs x.roots key.link kind).value := by rw [Backstore.resolve_congr backstore]
  cases hr : (Backstore.resolve fs x.roots key.link kind).value with
  | error f =>
    rw [hr] at alike
    cases f with
    | lookup f =>
      rw [offer_stops (Stops.lookup f hr), offer_stops (Stops.lookup f alike)]
      exact OfferGrows.trouble _ _
    | deviceNumber f =>
      rw [offer_breaks (Breaks.deviceNumber f hr), offer_breaks (Breaks.deviceNumber f alike)]
      exact OfferGrows.fault _
  | ok found =>
    rw [hr] at alike
    cases found with
    | none =>
      rw [offer_unmatched hr, offer_unmatched alike]
      exact OfferGrows.nothing
    | some i =>
      rcases Statistics.read_grown counters with ⟨f, f', hf, hf'⟩ | ⟨m, n, hmn, hm, hn⟩
      · rw [offer_stops (Stops.stats i f hr hf), offer_stops (Stops.stats i f' alike hf')]
        exact OfferGrows.trouble _ _
      · cases hw : Emission.values? ⟨n.1, n.2.1, n.2.2⟩ with
        | none =>
          rw [offer_breaks (Breaks.overflow ⟨i, _, alike, hn, hw⟩)]
          exact OfferGrows.overflow _
        | some w =>
          obtain ⟨v, hv, values⟩ := Emission.values?_mono hmn hw
          rw [offer_ready ⟨hr, _, hm, hv⟩, offer_ready ⟨alike, _, hn, hw⟩]
          exact OfferGrows.samples (triple_grows key kind x.namespacePart i values)

/-- Plans of LUNs that offer more: they end at the same LUN. The induction is on the LUNs, whose cases are those of
    the two offers; the one in which these differ is that of an overflow, which ends the second plan. -/
theorem planFrom_grows (found : List (LunKey × BackstoreKind)) (n : Nat)
    (h : ∀ l ∈ found, OfferGrows (offer fs x l) (offer fs' x l))
    (finite : (planFrom fs' x found n).result ≠ .error .overflow) :
    (planFrom fs x found n).result = (planFrom fs' x found n).result ∧
      List.Forall₂ Sample.Grows (planFrom fs x found n).samples (planFrom fs' x found n).samples := by
  induction found generalizing n with
  | nil => exact ⟨rfl, .nil⟩
  | cons l found ih =>
    have here := h l List.mem_cons_self
    have rest := fun m => ih m fun l' hl' => h l' (List.mem_cons_of_mem l hl')
    simp only [planFrom] at finite ⊢
    generalize offer fs x l = o, offer fs' x l = o' at here finite ⊢
    cases here with
    | nothing => exact rest n finite
    | samples grown =>
      obtain ⟨result, samples⟩ := rest (n + 1) finite
      exact ⟨result, List.rel_append grown samples⟩
    | trouble t t' => exact ⟨rfl, .nil⟩
    | fault f => exact ⟨rfl, .nil⟩
    | overflow o => exact absurd rfl finite

theorem offer_grows_of_yielded (named : fs.Named) (grows : fs.Grows fs' x.roots) :
    ∀ l ∈ Walk.yielded fs x.roots, OfferGrows (offer fs x l) (offer fs' x l) := by
  intro l hl
  obtain ⟨_, hnumber, hobject⟩ := Walk.plain_of_yielded hl
  have shown := (Walk.mem_yielded hl).1
  apply offer_grows
  · intro path asked
    exact grows.elsewhere path (asked.plain hnumber hobject) (asked.not_counter hnumber hobject)
  · intro path asked
    exact grows.counters path (shown.counters_outside named asked).plain ⟨_, _, _, asked⟩

/-- Let nothing but counters change from one file system to another, and no counter become smaller or cease to be a
    number or begin to be one. If the cycle over the second is not ended by an overflow, both cycles have the same
    result where nothing is refused, and they hand over samples of the same metrics with the same labels in the same
    order, each value of the second being no smaller. -/
theorem growing_counters_never_fall (named : fs.Named) (grows : fs.Grows fs' x.roots) {σ : Type}
    {send : Sample → σ → σ × Option SinkFault} {inv : σ → Prop}
    (still : (Station.steady fs send).Still fs x.namespacePart inv) {s : σ} (hs : inv s)
    (finite : (run (.steady fs' send) x s).result ≠ .error .overflow) :
    (run (.steady fs send) x s).result = (run (.steady fs' send) x s).result ∧
      List.Forall₂ Sample.Grows (sent (.steady fs send) x s) (sent (.steady fs' send) x s) := by
  have still' : (Station.steady fs' send).Still fs' x.namespacePart inv := ⟨fun _ _ => rfl, still.takes⟩
  obtain ⟨_, samples, result⟩ := run_still_planned still hs
  obtain ⟨_, samples', result'⟩ := run_still_planned still' hs
  have topology : fs.AgreeOn fs' (Topology.Asks fs x.roots) := fun path asked =>
    grows.elsewhere path (asked.outside named).plain (asked.not_counter named)
  have plan : planned fs' x = planFrom fs' x (Walk.yielded fs x.roots) 0 := by
    rw [Walk.yielded_congr topology]
    rfl
  rw [result', plan] at finite
  rw [samples, result, samples', result', plan]
  exact planFrom_grows _ 0 (offer_grows_of_yielded named grows) finite

end

end Cycle

/-! A counter that grows. -/

/-- File systems in which one file has another text. -/
def Sysfs.rewritten (fs : Sysfs) (path text : Text) : Sysfs :=
  { fs with read := fun p => if p = path then .ok text else fs.read p }

theorem Sysfs.rewritten_grows {fs : Sysfs} {r : Roots} {path text : Text} {m n : Nat}
    (counter : Statistics.IsCounter r path) (before : fs.natural path = .ok m) (digits : Text.areDigits text = true)
    (after : Text.natural text = .ok n) (h : m ≤ n) : fs.Grows (fs.rewritten path text) r where
  elsewhere p _ other := by
    have hp : p ≠ path := by
      intro e
      rw [e] at other
      exact other counter
    constructor <;> simp only [rewritten, if_neg hp]
  counters p _ _ := by
    by_cases hp : p = path
    · have number : (fs.rewritten path text).natural path = .ok n := by
        simp only [natural, rewritten, if_true, digits, after]
        rfl
      rw [hp, before, number]
      exact Statistics.Grown.read h
    · have same : (fs.rewritten path text).natural p = fs.natural p := by
        simp only [natural, rewritten, if_neg hp]
      rw [same]
      cases fs.natural p with
      | error f => exact Statistics.Grown.unread f f
      | ok k => exact Statistics.Grown.read (Nat.le_refl k)

namespace Cycle

def diskReads : Text := Path.join (Roots.specimen.statistics "iqn.a".toList "1".toList "0".toList) Layout.readUnits

/-- The small tree after another mebibyte was read from its disk. -/
def busier : Sysfs := FileTree.specimen.sysfs.rewritten diskReads "8".toList

theorem busier_grows : FileTree.specimen.sysfs.Grows busier Roots.specimen :=
  Sysfs.rewritten_grows (m := 7) (n := 8) ⟨_, _, _, Statistics.Asks.counter (by simp)⟩ rfl
    (by decide) rfl (by decide)

theorem specimen_never_falls :
    (run (.steady FileTree.specimen.sysfs Recorder.send) Exporter.specimen Recorder.fresh).result =
        (run (.steady busier Recorder.send) Exporter.specimen Recorder.fresh).result ∧
      List.Forall₂ Sample.Grows (sent (.steady FileTree.specimen.sysfs Recorder.send) Exporter.specimen Recorder.fresh)
        (sent (.steady busier Recorder.send) Exporter.specimen Recorder.fresh) ∧
      (sent (.steady FileTree.specimen.sysfs Recorder.send) Exporter.specimen Recorder.fresh).map (·.value) =
        [7340032, 0, 12] ∧
      (sent (.steady busier Recorder.send) Exporter.specimen Recorder.fresh).map (·.value) = [8388608, 0, 12] := by
  have finite : (run (.steady busier Recorder.send) Exporter.specimen Recorder.fresh).result ≠ .error .overflow := by
    decide +kernel
  obtain ⟨result, samples⟩ := growing_counters_never_fall (x := Exporter.specimen)
    FileTree.specimen_legal.sysfs_named busier_grows (Recorder.station_still FileTree.specimen.sysfs _) rfl finite
  exact ⟨result, samples, by decide +kernel, by decide +kernel⟩

end Cycle
end LunMetrics
