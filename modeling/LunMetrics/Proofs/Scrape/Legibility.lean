import LunMetrics.Proofs.Exposition.Reading
import LunMetrics.Proofs.Scrape.Regrouping

/- The text of a scrape tells its samples. In the usual namespace all names are written as they are, so what is read
   off the line of a sample is its metric with every label that it has (`Sample.reading`).

   1. The families of a scrape can be written (`writable_holding`), and the lines of each are its two head lines and
      those of the samples that carry its descriptor (`lines_holding`);
   2. there are two lines for each family and three for each LUN (`length_scrapeLines`);
   3. no two lines tell the same metric and labels: different families have different names, and within one family the
      labels tell the LUN (`readings_apart`);
   4. all of this together is what a scrape of a legal file tree writes (`text_tells_samples`). -/
namespace LunMetrics

theorem labels_eq_of_mem_iff {as bs : List (Text × Text)} (names : as.map (·.1) = bs.map (·.1))
    (distinct : (as.map (·.1)).Nodup) (same : ∀ l, l ∈ as ↔ l ∈ bs) : as = bs := by
  induction as generalizing bs with
  | nil =>
    cases bs with
    | nil => rfl
    | cons b bs => cases names
  | cons a as ih =>
    cases bs with
    | nil => cases names
    | cons b bs =>
      simp only [List.map_cons, List.cons.injEq] at names
      rw [List.map_cons, List.nodup_cons] at distinct
      have fresh : ∀ l ∈ as, l.1 ≠ a.1 := fun l hl e => distinct.1 (e ▸ List.mem_map_of_mem hl)
      have fresh' : ∀ l ∈ bs, l.1 ≠ a.1 := by
        intro l hl e
        apply distinct.1
        rw [names.2, ← e]
        exact List.mem_map_of_mem hl
      have head : a = b := by
        rcases List.mem_cons.1 ((same a).1 List.mem_cons_self) with e | later
        · exact e
        · exact absurd rfl (fresh' a later)
      subst head
      congr 1
      apply ih names.2 distinct.2
      intro l
      have whole := same l
      simp only [List.mem_cons] at whole
      refine ⟨?_, ?_⟩
      · intro hl
        rcases whole.1 (Or.inr hl) with rfl | h
        · exact absurd rfl (fresh _ hl)
        · exact h
      · intro hl
        rcases whole.2 (Or.inr hl) with rfl | h
        · exact absurd rfl (fresh' _ hl)
        · exact h

/-- What is to be read off the line of a sample: its metric, its labels by name, and its value. -/
def Sample.reading (y : Sample) : Exposition.Reading :=
  ⟨y.descriptor.name, Exposition.inOrder y.inFamily.labels, Exposition.value y.value⟩

namespace Metric

/-! Names in the usual namespace. -/

section
variable {d : Descriptor} (h : d ∈ descriptors standardNamespace)
include h

theorem written_name : Exposition.written d.name = d.name := by
  have all : ∀ d ∈ descriptors standardNamespace, Exposition.written d.name = d.name := by decide
  exact all d h

theorem plain_labelNames : ∀ name ∈ d.labelNames, '=' ∉ name ∧ '\n' ∉ name := by
  have all : ∀ d ∈ descriptors standardNamespace, ∀ name ∈ d.labelNames, '=' ∉ name ∧ '\n' ∉ name := by decide
  exact all d h

theorem plain_documentation : '\n' ∉ d.documentation := by
  have all : ∀ d ∈ descriptors standardNamespace, '\n' ∉ d.documentation := by decide
  exact all d h

end

end Metric

namespace Scrape

open LunMetrics.Cycle Exposition

/-! Lines. -/

/-- The samples that have the name of a family's samples. -/
def named (ys : List Sample) (f : Family) : List Sample := ys.filter (·.descriptor.name = f.sampleName)

/-- The lines of a scrape with the samples `ys`: for every family that is described two head lines, and then a line for
    each of its samples. -/
def scrapeLines (x : Exporter) (ys : List Sample) : List Text :=
  (describe x).flatMap fun f => helpLine f :: typeLine f :: (named ys f).map fun y => line y.inFamily

/-- The samples in the order of their lines. -/
def inLines (x : Exporter) (ys : List Sample) : List Sample := (describe x).flatMap (named ys)

theorem describe_eq (x : Exporter) : describe x = (Metric.descriptors x.namespacePart).map Family.bare := by
  unfold describe Families.ofNamespace Families.toList
  rw [List.map_map]
  rfl

section
variable {x : Exporter} {ys : List Sample} (carried : ∀ y ∈ ys, y.descriptor ∈ Metric.descriptors x.namespacePart)
include carried

theorem named_bare {d : Descriptor} (h : d ∈ Metric.descriptors x.namespacePart) :
    named ys (Family.bare d) = ys.filter (·.descriptor = d) := by
  unfold named
  rw [Family.sampleName_bare h]
  apply List.filter_congr
  intro y hy
  rw [decide_eq_decide]
  exact ⟨Metric.eq_of_name (carried y hy) h, congrArg Descriptor.name⟩

theorem inLines_eq :
    inLines x ys = (Metric.descriptors x.namespacePart).flatMap fun d => ys.filter (·.descriptor = d) := by
  unfold inLines
  rw [describe_eq, List.flatMap_map]
  exact List.flatMap_congr fun d hd => named_bare carried hd

theorem lines_holding :
    ((Metric.descriptors x.namespacePart).map (Family.holding ys)).flatMap lines = scrapeLines x ys := by
  unfold scrapeLines
  rw [describe_eq, List.flatMap_map, List.flatMap_map]
  apply List.flatMap_congr
  intro d hd
  rw [named_bare carried hd]
  unfold lines Family.holding
  rw [List.map_map]
  rfl

/-- The families share the samples out among them. -/
theorem inLines_perm : (inLines x ys).Perm ys := by
  rw [inLines_eq carried]
  exact descriptors_share carried

theorem length_scrapeLines : (scrapeLines x ys).length = 24 + ys.length := by
  have samples := sum_lengths_holding carried
  rw [Families.toList_holding, List.map_map] at samples
  have heads : ((Metric.descriptors x.namespacePart).map fun _ => 2).sum = 24 := rfl
  have each : ∀ d ∈ Metric.descriptors x.namespacePart, (lines (Family.holding ys d)).length =
      2 + (Family.holding ys d).samples.length := by
    intro d _
    simp only [lines, List.length_cons, List.length_map]
    omega
  rw [← lines_holding carried, List.flatMap_map, List.length_flatMap, List.map_congr_left each, List.sum_map_add,
    heads]
  exact congrArg (24 + ·) samples

end

/-! Reading. -/

theorem writable_holding {ys : List Sample} {d : Descriptor} (h : d ∈ Metric.descriptors Metric.standardNamespace) :
    Writable (Family.holding ys d) where
  documentation := Metric.plain_documentation h
  names s hs l hl := by
    obtain ⟨y, hy, rfl⟩ := List.mem_map.1 hs
    have carried : y.descriptor = d := of_decide_eq_true (List.mem_filter.1 hy).2
    apply Metric.plain_labelNames h
    rw [← carried]
    exact (List.of_mem_zip hl).1

theorem readings_holding {r : Roots} {ys : List Sample}
    (carried : ∀ y ∈ ys, y.descriptor ∈ Metric.descriptors Metric.standardNamespace) :
    ((Metric.descriptors Metric.standardNamespace).map (Family.holding ys)).flatMap
        (fun f => f.samples.map Exposition.reading) =
      (inLines ⟨r, Metric.standardNamespace⟩ ys).map Sample.reading := by
  rw [inLines_eq carried, List.flatMap_map, List.map_flatMap]
  apply List.flatMap_congr
  intro d hd
  unfold Family.holding
  rw [List.map_map]
  apply List.map_congr_left
  intro y hy
  have name := Metric.written_name (carried y (List.mem_filter.1 hy).1)
  simp only [Function.comp_apply, Exposition.reading, Sample.reading, Sample.inFamily, name]

/-- Lines of different families tell different metrics, and lines of one family different labels. -/
theorem readings_apart {x : Exporter} {ys : List Sample} (emitted : ∀ y ∈ ys, Emission.Emitted x.namespacePart y)
    (labels : ∀ d ∈ Metric.descriptors x.namespacePart, ((Family.holding ys d).samples.map (·.labels)).Nodup) :
    ((inLines x ys).map Sample.reading).Pairwise
      fun a b => ¬ (a.name = b.name ∧ ∀ l, l ∈ a.labels ↔ l ∈ b.labels) := by
  rw [inLines_eq fun y hy => (emitted y hy).carries, List.pairwise_map, List.pairwise_flatMap]
  refine ⟨?_, ?_⟩
  · intro d hd
    have apart := labels d hd
    unfold List.Nodup Family.holding at apart
    simp only [List.map_map, List.pairwise_map, Function.comp_apply] at apart
    apply apart.imp_of_mem
    rintro y z hy hz different ⟨-, same⟩
    obtain ⟨hy, carried⟩ := List.mem_filter.1 hy
    obtain ⟨hz, carried'⟩ := List.mem_filter.1 hz
    have one : y.descriptor = z.descriptor := (of_decide_eq_true carried).trans (of_decide_eq_true carried').symm
    apply different
    have names := (emitted y hy).labelled.1
    apply labels_eq_of_mem_iff
    · rw [names, (emitted z hz).labelled.1, one]
    · rw [names]
      exact Metric.labelNames_nodup (emitted y hy).carries
    · intro l
      have sorted := same l
      simp only [Sample.reading, inOrder, (sortBy_perm _ _).mem_iff] at sorted
      exact sorted
  · have names := Metric.names_nodup x.namespacePart
    unfold List.Nodup at names
    rw [List.pairwise_map] at names
    apply names.imp
    rintro d d' different y hy z hz ⟨same, -⟩
    apply different
    have carried : y.descriptor = d := of_decide_eq_true (List.mem_filter.1 hy).2
    have carried' : z.descriptor = d' := of_decide_eq_true (List.mem_filter.1 hz).2
    rw [← carried, ← carried']
    exact same

/-! The text. -/

/-- What a text is, if `ys` are the samples that it is to tell and `n` is their number of LUNs. -/
structure Tells (x : Exporter) (ys : List Sample) (n : Nat) (text : Text) : Prop where
  /-- It is made of lines with a line end behind each and none in any, two for each family and three for each LUN. -/
  terminated : text = (scrapeLines x ys).flatMap (· ++ ['\n'])
  whole : ∀ l ∈ scrapeLines x ys, '\n' ∉ l
  count : (scrapeLines x ys).length = 24 + 3 * n
  /-- Cutting it at the line ends gives these lines, and reading each off gives the samples. -/
  cut : text.splitOn '\n' = scrapeLines x ys ++ [[]]
  read : (text.splitOn '\n').filterMap readLine = (inLines x ys).map Sample.reading
  /-- No sample is left out, and every label of one is there, under a name of its own. -/
  shared : (inLines x ys).Perm ys
  complete : ∀ y ∈ ys, y.descriptor.labelNames.Nodup ∧ y.inFamily.labels.map (·.1) = y.descriptor.labelNames ∧
    y.inFamily.labels.map (·.2) = y.labels ∧ y.reading.labels.Perm y.inFamily.labels
  /-- No two lines tell the same metric and the same labels. -/
  apart : ((text.splitOn '\n').filterMap readLine).Pairwise
    fun a b => ¬ (a.name = b.name ∧ ∀ l, l ∈ a.labels ↔ l ∈ b.labels)

/-- The text of a scrape of a legal file tree that does not fail, in the usual namespace, tells the samples that a
    recorder keeps in the same cycle. -/
theorem text_tells_samples {t : FileTree} (legal : t.Legal) {r : Roots} {families : List Family}
    (done : (collect t.sysfs ⟨r, Metric.standardNamespace⟩).result = .ok families) :
    ∃ n, (run (Recorder.station t.sysfs) ⟨r, Metric.standardNamespace⟩ Recorder.fresh).result = .ok n ∧
      Tells ⟨r, Metric.standardNamespace⟩
        (run (Recorder.station t.sysfs) ⟨r, Metric.standardNamespace⟩ Recorder.fresh).state.kept n (text families) := by
  have kept : (run (Recorder.station t.sysfs) ⟨r, Metric.standardNamespace⟩ Recorder.fresh).state.kept =
      sent (Recorder.station t.sysfs) ⟨r, Metric.standardNamespace⟩ Recorder.fresh := kept_eq_sent Recorder.keeps rfl
  obtain ⟨n, ended, held, emitted⟩ := collect_holding done
  obtain ⟨bs, batches, among, count⟩ := run_whole _ _ ended
  rw [kept]
  refine ⟨n, ended, ?_⟩
  generalize sent (Recorder.station t.sysfs) ⟨r, Metric.standardNamespace⟩ Recorder.fresh = ys at held emitted batches
  rw [Families.toList_holding] at held
  have carried : ∀ y ∈ ys, y.descriptor ∈ Metric.descriptors Metric.standardNamespace :=
    fun y hy => (emitted y hy).carries
  have writable : ∀ f ∈ families, Writable f := by
    rw [held]
    intro f hf
    obtain ⟨d, hd, rfl⟩ := List.mem_map.1 hf
    exact writable_holding hd
  have lines : families.flatMap lines = scrapeLines ⟨r, Metric.standardNamespace⟩ ys := by
    rw [held]
    exact lines_holding carried
  have read : ((text families).splitOn '\n').filterMap readLine =
      (inLines ⟨r, Metric.standardNamespace⟩ ys).map Sample.reading := by
    rw [readings_text writable, held]
    exact readings_holding carried
  have labels : ∀ d ∈ Metric.descriptors Metric.standardNamespace,
      ((Family.holding ys d).samples.map (·.labels)).Nodup := by
    intro d hd
    obtain ⟨k, c, rfl⟩ := (Metric.mem_descriptors_iff _ d).1 hd
    rw [batches, labels_holding]
    exact labels_nodup (batches_labels_nodup legal among) k
  constructor
  case terminated => rw [text_eq, lines]
  case whole =>
    rw [← lines]
    intro l hl
    obtain ⟨f, hf, hl⟩ := List.mem_flatMap.1 hl
    exact lines_newline (writable f hf) l hl
  case count => rw [length_scrapeLines carried, batches, length_whole, count]
  case cut => rw [splitOn_text writable, lines]
  case read => exact read
  case shared => exact inLines_perm carried
  case complete =>
    intro y hy
    obtain ⟨names, values⟩ := (emitted y hy).labelled
    exact ⟨Metric.labelNames_nodup (carried y hy), names, values, sortBy_perm _ _⟩
  case apart =>
    rw [read]
    exact readings_apart emitted labels

/-! Odd names. -/

/-- A name made of what stands between label values, and of what is written as two characters. -/
def oddName : Text := ['"', ',', '\x7d', ' ', '\\', '\n', '=']

/-- The small tree with such a name for its disk. -/
def odd : FileTree :=
  let group := ["c".toList, "target".toList, "iscsi".toList, "iqn.a".toList, "tpgt_1".toList]
  let lun := group ++ ["lun".toList, "lun_0".toList]
  let disk := ["c".toList, "target".toList, "core".toList, "rd_mcp_0".toList, oddName]
  (FileTree.specimen.put (lun ++ ["b".toList]) (.link ("core/rd_mcp_0/".toList ++ oddName))).put disk .directory

theorem odd_legal : odd.Legal := by decide +kernel

/-- The three lines of the disk tell its name. -/
theorem odd_text_tells_samples :
    (collect odd.sysfs ⟨Roots.specimen, Metric.standardNamespace⟩).result.toOption.isSome = true ∧
      ∃ families n, (collect odd.sysfs ⟨Roots.specimen, Metric.standardNamespace⟩).result = .ok families ∧
        Tells ⟨Roots.specimen, Metric.standardNamespace⟩
          (run (Recorder.station odd.sysfs) ⟨Roots.specimen, Metric.standardNamespace⟩ Recorder.fresh).state.kept n
          (text families) ∧
        (((text families).splitOn '\n').filterMap readLine).map (·.labels.lookup "object".toList) =
          [some oddName, some oddName, some oddName] := by
  have done : (collect odd.sysfs ⟨Roots.specimen, Metric.standardNamespace⟩).result.toOption.isSome = true := by
    decide +kernel
  have told : (inLines ⟨Roots.specimen, Metric.standardNamespace⟩
      (run (Recorder.station odd.sysfs) ⟨Roots.specimen, Metric.standardNamespace⟩ Recorder.fresh).state.kept).map
        (fun y => y.reading.labels.lookup "object".toList) = [some oddName, some oddName, some oddName] := by
    decide +kernel
  refine ⟨done, ?_⟩
  cases hc : (collect odd.sysfs ⟨Roots.specimen, Metric.standardNamespace⟩).result with
  | error fault =>
    rw [hc] at done
    cases done
  | ok families =>
    obtain ⟨n, _, tells⟩ := text_tells_samples odd_legal hc
    refine ⟨families, n, rfl, tells, ?_⟩
    rw [tells.read, List.map_map]
    exact told

end Scrape
end LunMetrics
