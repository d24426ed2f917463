import LunMetrics.Proofs.Cycle.Isolation
import LunMetrics.Proofs.Cycle.Plan

/- LUNs without a storage object are not seen. Two file systems are compared, of which the second shows one more LUN in
   one group and differs in nothing else but what is in the directory of this LUN (`Sysfs.Inserts`):

   1. the walk goes down the levels, so that what a name on the way contributes can be told by itself
      (`Walk.yielded_eq`);
   2. wherever the new name is among its siblings, the walk over the first file systems is that over the second
      without the LUN of this name (`Inserts.yielded_eq`), and all other LUNs are updated alike
      (`Inserts.agree_of_counters`, `Inserts.agree_of_backstore`);
   3. if the new LUN has no storage object (`Hollow`), it offers nothing, whatever its counters are
      (`offer_of_hollow`), so the plans and with them the cycles are the same (`run_blind_to_hollow`). -/
namespace LunMetrics

/-! The walk, level by level. -/

namespace Walk

section
variable (fs : Sysfs) (r : Roots)

/-- The LUN that a name among those of a group stands for, if it is of a known kind. -/
def lunAt? (iqn tag name : Text) : Option (LunKey × BackstoreKind) :=
  (Topology.lunOf? fs (r.luns iqn tag) name).bind fun e =>
    (LunKey.ofEntry iqn tag e).kind?.map (LunKey.ofEntry iqn tag e, ·)

/-- The LUNs of the group that a name among those of a target stands for, if it is enabled. -/
def groupAt (iqn name : Text) : List (LunKey × BackstoreKind) :=
  match Text.after? Layout.groupStart name with
  | none => []
  | some tag =>
    if Topology.isEnabled fs (r.group iqn tag) then (Topology.shown fs (r.luns iqn tag)).filterMap (lunAt? fs r iqn tag)
    else []

def targetAt (iqn : Text) : List (LunKey × BackstoreKind) :=
  (Topology.shown fs (r.target iqn)).flatMap (groupAt fs r iqn)

theorem groupLuns_eq (iqn tag : Text) :
    Item.groupLuns iqn (Topology.readGroup fs (r.group iqn tag) tag).value =
      if Topology.isEnabled fs (r.group iqn tag) then
        (Topology.shown fs (r.luns iqn tag)).filterMap (lunAt? fs r iqn tag)
      else [] := by
  rw [Topology.value_readGroup]
  unfold Item.groupLuns
  split
  · rw [← List.filterMap_eq_flatMap_toList, Topology.value_readLuns, List.filterMap_filterMap]
    rfl
  · rfl

theorem targetLuns_eq (iqn : Text) (names : List Text) :
    Item.targetLuns ⟨iqn, names.filterMap (Topology.groupOf? fs (r.target iqn))⟩ =
      names.flatMap (groupAt fs r iqn) := by
  induction names with
  | nil => rfl
  | cons name names ih =>
    unfold Item.targetLuns at ih ⊢
    rw [List.flatMap_cons, ← ih]
    unfold groupAt
    cases ha : Text.after? Layout.groupStart name with
    | none =>
      have none : Topology.groupOf? fs (r.target iqn) name = none := by
        unfold Topology.groupOf?
        rw [ha]
        rfl
      rw [List.filterMap_cons_none none]
      rfl
    | some tag =>
      obtain rfl := (Text.after?_eq_some_iff _ _ _).1 ha
      have group : Topology.groupOf? fs (r.target iqn) (Layout.groupStart ++ tag) =
          some (Topology.readGroup fs (r.group iqn tag) tag).value := by
        unfold Topology.groupOf?
        rw [ha]
        rfl
      have flag : (Topology.readGroup fs (r.group iqn tag) tag).value.enabled =
          Topology.isEnabled fs (r.group iqn tag) := by rw [Topology.value_readGroup]
      rw [List.filterMap_cons_some group, List.filter_cons, flag]
      simp only
      split
      · next on => rw [List.flatMap_cons, groupLuns_eq, if_pos on]
      · rfl

/-- The walk goes down the levels: targets, groups, LUNs. -/
theorem yielded_eq :
    yielded fs r = ((Topology.shown fs r.iscsi).filter Layout.iqnStart.isPrefixOf).flatMap (targetAt fs r) := by
  unfold yielded
  rw [value_luns]
  cases hl : fs.list r.iscsi with
  | error f =>
    unfold Topology.shown
    rw [hl]
    rfl
  | ok names =>
    rw [Topology.shown_eq hl]
    simp only [Topology.value_readTargetsAmong, List.flatMap_map]
    apply List.flatMap_congr
    intro iqn _
    rw [Topology.value_readGroups]
    exact targetLuns_eq fs r iqn _

theorem labels_of_lunAt? {iqn tag lun : Text} {l : LunKey × BackstoreKind}
    (h : lunAt? fs r iqn tag (Layout.lunStart ++ lun) = some l) : l.1.exportLabels = [iqn, tag, lun] := by
  obtain ⟨e, he, hk⟩ := Option.bind_eq_some_iff.1 h
  obtain ⟨name, _⟩ := (Topology.lunOf?_eq_some_iff _ _ _ _).1 he
  obtain ⟨kind, _, rfl⟩ := Option.map_eq_some_iff.1 hk
  rw [List.append_cancel_left name]
  rfl

def differs (iqn tag lun : Text) (l : LunKey × BackstoreKind) : Bool := l.1.exportLabels ≠ [iqn, tag, lun]

/-- The names on the way to a LUN stand for no other one. -/
theorem filter_lunAt? (iqn tag lun : Text) :
    (lunAt? fs r iqn tag (Layout.lunStart ++ lun)).filter (differs iqn tag lun) = none := by
  cases hl : lunAt? fs r iqn tag (Layout.lunStart ++ lun) with
  | none => rfl
  | some l =>
    have dropped : differs iqn tag lun l = false := by
      unfold differs
      rw [labels_of_lunAt? fs r hl]
      simp
    rw [Option.filter_some, dropped]
    rfl

end

end Walk

/-! One more LUN. -/

/-- Whether a group shows one more LUN in the second file systems than in the first, and they agree on all ways down
    from the three trees but those to and below the directory of this LUN. -/
structure Sysfs.Inserts (fs fs' : Sysfs) (r : Roots) (iqn tag lun : Text) : Prop where
  group : Topology.ShowsGroup fs r iqn tag
  listed : ∃ before after, fs.list (r.luns iqn tag) = .ok (before ++ after) ∧
    fs'.list (r.luns iqn tag) = .ok (before ++ (Layout.lunStart ++ lun) :: after) ∧
    Layout.lunStart ++ lun ∉ before ++ after
  elsewhere : ∀ path, r.Plain path → path ≠ r.luns iqn tag → ¬ Path.Within (r.lun iqn tag lun) path →
    fs.AgreeAt fs' path

namespace Sysfs.Inserts

section
variable {fs fs' : Sysfs} {r : Roots} {iqn tag lun : Text} (inserts : fs.Inserts fs' r iqn tag lun)
include inserts

theorem other_of_shown {iqn' tag' lun' : Text} (shown : Topology.ShowsLun fs r iqn' tag' lun') :
    [iqn', tag', lun'] ≠ [iqn, tag, lun] := by
  obtain ⟨before, after, listed, _, absent⟩ := inserts.listed
  intro e
  simp only [List.cons.injEq, and_true] at e
  obtain ⟨rfl, rfl, rfl⟩ := e
  have here := shown.listed
  rw [Topology.shown_eq listed] at here
  exact absent here

variable (named : fs.Named) (named' : fs'.Named)
include named named'

theorem plain : ∀ n ∈ [iqn, Layout.groupStart ++ tag, Layout.lunDir, Layout.lunStart ++ lun], Path.IsPlain n := by
  obtain ⟨before, after, _, listed', _⟩ := inserts.listed
  have shown : Layout.lunStart ++ lun ∈ Topology.shown fs' (r.luns iqn tag) := by
    rw [Topology.shown_eq listed']
    simp
  exact inserts.group.plain_lun named (named' _ _ shown)

theorem agree_of_way {names : List Text} (plain : ∀ n ∈ names, Path.IsPlain n)
    (other : names ≠ [iqn, Layout.groupStart ++ tag, Layout.lunDir])
    (apart : ¬ [iqn, Layout.groupStart ++ tag, Layout.lunDir, Layout.lunStart ++ lun] <+: names) :
    fs.AgreeAt fs' (Path.joinAll r.iscsi names) := by
  have parts : ∀ n ∈ names, Path.IsPart n := fun n hn => (plain n hn).toIsPart
  have way := inserts.plain named named'
  apply inserts.elsewhere _ ⟨r.iscsi, List.mem_cons_self, names, plain, rfl⟩
  · rw [r.luns_eq]
    intro e
    exact other (Path.joinAll_inj r.open_iscsi parts (fun n hn => (inserts.group.plain named n hn).toIsPart) e)
  · rw [r.lun_eq, Path.within_joinAll_iff r.open_iscsi (fun n hn => (way n hn).toIsPart) parts]
    exact apart

theorem agree_below {iqn' tag' lun' : Text} (shown : Topology.ShowsLun fs r iqn' tag' lun') {names : List Text}
    (plain : ∀ n ∈ names, Path.IsPlain n) : fs.AgreeAt fs' (Path.joinAll (r.lun iqn' tag' lun') names) := by
  have other := inserts.other_of_shown shown
  rw [r.lun_eq, ← Path.joinAll_append]
  apply inserts.agree_of_way named named'
  · intro n hn
    rcases List.mem_append.1 hn with hn | hn
    · exact shown.plain named n hn
    · exact plain n hn
  · simp
  · intro begins
    simp only [List.cons_append, List.nil_append, List.cons_prefix_cons, List.append_cancel_left_eq] at begins
    obtain ⟨rfl, rfl, _, rfl, _⟩ := begins
    exact other rfl

/-! The walk over both. -/

theorem isEnabled_eq {iqn' tag' : Text} (shown : Topology.ShowsGroup fs r iqn' tag') :
    Topology.isEnabled fs (r.group iqn' tag') = Topology.isEnabled fs' (r.group iqn' tag') := by
  have plain : ∀ n ∈ [iqn', Layout.groupStart ++ tag', Layout.enable], Path.IsPlain n := by
    simp only [List.forall_mem_cons]
    exact ⟨named _ _ shown.target.listed, named _ _ shown.listed, by decide, List.forall_mem_nil _⟩
  have other : Layout.enable ≠ Layout.lunDir := by decide
  apply Topology.isEnabled_congr
  apply inserts.agree_of_way named named' plain
  · simp [other]
  · simp [List.cons_prefix_cons]

theorem backing?_eq {iqn' tag' lun' : Text} (shown : Topology.ShowsLun fs r iqn' tag' lun') :
    Topology.backing? fs (r.lun iqn' tag' lun') = Topology.backing? fs' (r.lun iqn' tag' lun') := by
  rw [← Topology.value_readLink, ← Topology.value_readLink]
  apply congrArg Logged.value
  apply Topology.readLink_congr
  · exact inserts.agree_below named named' shown (List.forall_mem_nil _)
  · intro name hn
    exact inserts.agree_below named named' shown (List.forall_mem_singleton.2 (named _ _ hn))

theorem lunAt?_eq {iqn' tag' name : Text} (group : Topology.ShowsGroup fs r iqn' tag')
    (on : Topology.isEnabled fs (r.group iqn' tag') = true) (hn : name ∈ Topology.shown fs (r.luns iqn' tag')) :
    Walk.lunAt? fs r iqn' tag' name = (Walk.lunAt? fs' r iqn' tag' name).filter (Walk.differs iqn tag lun) := by
  cases ha : Text.after? Layout.lunStart name with
  | none => simp [Walk.lunAt?, Topology.lunOf?, ha]
  | some lun' =>
    obtain rfl := (Text.after?_eq_some_iff _ _ _).1 ha
    have shown : Topology.ShowsLun fs r iqn' tag' lun' := ⟨group, on, hn⟩
    have backing := inserts.backing?_eq named named' shown
    have same : Walk.lunAt? fs r iqn' tag' (Layout.lunStart ++ lun') =
        Walk.lunAt? fs' r iqn' tag' (Layout.lunStart ++ lun') := by
      unfold Roots.lun at backing
      simp only [Walk.lunAt?, Topology.lunOf?, backing]
    rw [same]
    cases hl : Walk.lunAt? fs' r iqn' tag' (Layout.lunStart ++ lun') with
    | none => rfl
    | some l =>
      have labels := Walk.labels_of_lunAt? fs' r hl
      have kept : Walk.differs iqn tag lun l = true := by
        unfold Walk.differs
        rw [labels]
        exact decide_eq_true (inserts.other_of_shown shown)
      rw [Option.filter_some, if_pos kept]

theorem luns_eq {iqn' tag' : Text} (group : Topology.ShowsGroup fs r iqn' tag')
    (on : Topology.isEnabled fs (r.group iqn' tag') = true) :
    (Topology.shown fs (r.luns iqn' tag')).filterMap (Walk.lunAt? fs r iqn' tag') =
      ((Topology.shown fs' (r.luns iqn' tag')).filterMap (Walk.lunAt? fs' r iqn' tag')).filter
        (Walk.differs iqn tag lun) := by
  have kept : ∀ name ∈ Topology.shown fs (r.luns iqn' tag'), Walk.lunAt? fs r iqn' tag' name =
      (Walk.lunAt? fs' r iqn' tag' name).filter (Walk.differs iqn tag lun) :=
    fun name hn => inserts.lunAt?_eq named named' group on hn
  rw [List.filter_filterMap, List.filterMap_congr kept]
  by_cases here : iqn' = iqn ∧ tag' = tag
  · -- the new name is among the others and stands for nothing that is kept
    obtain ⟨rfl, rfl⟩ := here
    obtain ⟨before, after, listed, listed', _⟩ := inserts.listed
    rw [Topology.shown_eq listed, Topology.shown_eq listed', List.filterMap_append, List.filterMap_append,
      List.filterMap_cons]
    simp only [Walk.filter_lunAt?]
  · -- another group shows the same names
    have other : [iqn', Layout.groupStart ++ tag', Layout.lunDir] ≠ [iqn, Layout.groupStart ++ tag, Layout.lunDir] := by
      intro e
      simp only [List.cons.injEq, List.append_cancel_left_eq, and_true] at e
      exact here e
    have list : Topology.shown fs (r.luns iqn' tag') = Topology.shown fs' (r.luns iqn' tag') :=
      Topology.shown_congr (inserts.agree_of_way named named' (group.plain named) other (by simp))
    rw [list]

/-- A group shows the same LUNs in both, apart from the new one. -/
theorem groupAt_eq {iqn' name : Text} (target : Topology.ShowsTarget fs r iqn')
    (hn : name ∈ Topology.shown fs (r.target iqn')) :
    Walk.groupAt fs r iqn' name = (Walk.groupAt fs' r iqn' name).filter (Walk.differs iqn tag lun) := by
  unfold Walk.groupAt
  cases ha : Text.after? Layout.groupStart name with
  | none => rfl
  | some tag' =>
    obtain rfl := (Text.after?_eq_some_iff _ _ _).1 ha
    have group : Topology.ShowsGroup fs r iqn' tag' := ⟨target, hn⟩
    simp only [← inserts.isEnabled_eq named named' group]
    split
    · next on => exact inserts.luns_eq named named' group on
    · rfl

/-- The walk over the first file systems is that over the second, without the new LUN. -/
theorem yielded_eq : Walk.yielded fs r = (Walk.yielded fs' r).filter (Walk.differs iqn tag lun) := by
  have root : Topology.shown fs r.iscsi = Topology.shown fs' r.iscsi :=
    Topology.shown_congr (inserts.agree_of_way named named' (List.forall_mem_nil _) (by simp) (by simp))
  rw [Walk.yielded_eq, Walk.yielded_eq, List.filter_flatMap, root]
  apply List.flatMap_congr
  intro iqn' hi
  obtain ⟨listed, begins⟩ := List.mem_filter.1 hi
  rw [← root] at listed
  have target : Topology.ShowsTarget fs r iqn' := ⟨listed, begins⟩
  have groups : Topology.shown fs (r.target iqn') = Topology.shown fs' (r.target iqn') :=
    Topology.shown_congr
      (inserts.agree_of_way named named' (List.forall_mem_singleton.2 (named _ _ listed)) (by simp) (by simp))
  unfold Walk.targetAt
  rw [List.filter_flatMap, ← groups]
  exact List.flatMap_congr fun name hn => inserts.groupAt_eq named named' target hn

/-! What is asked about to update the LUNs of both. -/

theorem agree_of_counters {iqn' tag' lun' : Text} (shown : Topology.ShowsLun fs r iqn' tag' lun') :
    fs.AgreeOn fs' (Statistics.Asks r iqn' tag' lun') := by
  have fixed : ∀ name ∈ [Layout.readUnits, Layout.writeUnits, Layout.commands],
      ∀ n ∈ ["statistics".toList, "scsi_tgt_port".toList, name], Path.IsPlain n := by decide
  intro path asked
  cases asked with
  | @counter name hn =>
    rw [r.statistics_eq, ← Path.joinAll_concat]
    exact inserts.agree_below named named' shown (fixed name hn)

theorem agree_of_backstore (devices : ¬ Path.Within (r.lun iqn tag lun) r.rbdDevices) {link : BackstoreLink}
    (hnumber : '/' ∉ link.number) (hobject : Path.IsPlain link.object) {kind : BackstoreKind} :
    fs.AgreeOn fs' (Backstore.Asks fs r link kind) := by
  have way := inserts.plain named named'
  simp only [List.forall_mem_cons] at way
  obtain ⟨_, hgroup, _, hlun, _⟩ := way
  have group : Path.Open (r.group iqn tag) := Path.Open.join _ hgroup.toIsPart
  have luns : Path.Open (r.luns iqn tag) := Path.Open.join _ (by decide)
  intro path asked
  have plain := asked.plain hnumber hobject
  rcases asked.way hnumber hobject with ⟨names, hn, rfl⟩ | ⟨names, parts, rfl⟩
  · -- storage objects are not in the export tree
    have core : Path.Within r.core (Path.joinAll r.core names) :=
      Path.within_joinAll_of r.open_core fun n h => (hn n h).toIsPart
    have apart : ¬ Path.Within r.iscsi (Path.joinAll r.core names) := fun h => r.iscsi_apart_core h core
    have above : Path.Within r.iscsi (r.luns iqn tag) := by
      rw [r.luns_eq]
      exact Path.within_joinAll_of r.open_iscsi fun n h => (inserts.group.plain named n h).toIsPart
    apply inserts.elsewhere _ plain
    · intro e
      rw [e] at apart
      exact apart above
    · intro within
      exact apart ((above.trans (Path.within_joined luns hlun.toIsPart)).trans within)
  · apply inserts.elsewhere _ plain
    · exact devices_ne_luns group parts
    · intro within
      have begins : Layout.lunDir <+: Layout.lunStart ++ lun := ⟨'_' :: lun, rfl⟩
      exact devices (within_lun_of_devices luns parts hlun.toIsPart begins within)

end

end Sysfs.Inserts

/-! The cycle. -/

namespace Cycle

/-- Whether a LUN is without a storage object: no link to one is found in its directory, or one that is not of a known
    kind, or one that has no counterpart. -/
inductive Hollow (fs : Sysfs) (r : Roots) (iqn tag lun : Text) : Prop
  | unlinked : (Topology.readLink fs (r.lun iqn tag lun)).value = none → Hollow fs r iqn tag lun
  | unknown {link : BackstoreLink} : (Topology.readLink fs (r.lun iqn tag lun)).value = some link →
      BackstoreKind.ofToken? link.store = none → Hollow fs r iqn tag lun
  | unmatched {link : BackstoreLink} {kind : BackstoreKind} :
      (Topology.readLink fs (r.lun iqn tag lun)).value = some link → BackstoreKind.ofToken? link.store = some kind →
      (Backstore.resolve fs r link kind).value = .ok none → Hollow fs r iqn tag lun

section
variable {fs fs' : Sysfs} {x : Exporter} {iqn tag lun : Text}

/-- If the walk comes to a LUN without a storage object at all, it has no samples. -/
theorem offer_of_hollow (hollow : Hollow fs x.roots iqn tag lun) :
    ∀ l ∈ Walk.yielded fs x.roots, Walk.differs iqn tag lun l = false → offer fs x l = .ok none := by
  intro l hl same
  obtain ⟨⟨iqn', tag', lun', link⟩, kind⟩ := l
  have labels : [iqn', tag', lun'] = [iqn, tag, lun] := by simpa [Walk.differs, LunKey.exportLabels] using same
  simp only [List.cons.injEq, and_true] at labels
  obtain ⟨rfl, rfl, rfl⟩ := labels
  obtain ⟨_, backing, known⟩ := Walk.mem_yielded hl
  rw [← Topology.value_readLink] at backing
  cases hollow with
  | unlinked none => cases backing.symm.trans none
  | unknown found unknown =>
    cases backing.symm.trans found
    cases known.symm.trans unknown
  | unmatched found known' unmatched =>
    cases backing.symm.trans found
    cases known.symm.trans known'
    exact offer_unmatched unmatched

/-- Let a group show one more LUN, without a storage object, and let nothing else change but what is in the directory
    of this LUN, where the device tree is not. Then the cycles are the same at every sink, but for events: they leave
    the sink in the same state, with the same result, and hand over the same samples. -/
theorem run_blind_to_hollow (named : fs.Named) (named' : fs'.Named) (inserts : fs.Inserts fs' x.roots iqn tag lun)
    (devices : ¬ Path.Within (x.roots.lun iqn tag lun) x.roots.rbdDevices)
    (hollow : Hollow fs' x.roots iqn tag lun) {σ : Type} (send : Sample → σ → σ × Option SinkFault) (s : σ) :
    (run (.steady fs send) x s).ending = (run (.steady fs' send) x s).ending ∧
      deliveries (.steady fs send) x s = deliveries (.steady fs' send) x s := by
  have walk := inserts.yielded_eq named named'
  have offers : ∀ l ∈ Walk.yielded fs x.roots, offer fs x l = offer fs' x l := by
    intro l hl
    obtain ⟨_, hnumber, hobject⟩ := Walk.plain_of_yielded hl
    exact offer_congr (inserts.agree_of_backstore named named' devices hnumber hobject)
      (inserts.agree_of_counters named named' (Walk.mem_yielded hl).1)
  apply run_eq_of_planned
  calc planned fs x = planFrom fs' x (Walk.yielded fs x.roots) 0 := planFrom_congr _ 0 offers
    _ = planFrom fs' x ((Walk.yielded fs' x.roots).filter (Walk.differs iqn tag lun)) 0 := by rw [walk]
    _ = planned fs' x := planFrom_filter _ _ 0 (offer_of_hollow hollow)

end

end Cycle

/-! A LUN less. -/

/-- File systems in which the listing of one directory has other names. -/
def Sysfs.relisted (fs : Sysfs) (dir : Text) (names : List Text) : Sysfs :=
  { fs with list := fun path => if path = dir then .ok names else fs.list path }

theorem Sysfs.Named.relisted {fs : Sysfs} (named : fs.Named) (dir : Text) {names : List Text}
    (plain : ∀ n ∈ names, Path.IsPlain n) : (fs.relisted dir names).Named := by
  intro path name hn
  by_cases here : path = dir
  · have listed : (fs.relisted dir names).list path = .ok names := if_pos here
    rw [Topology.shown_eq listed] at hn
    exact plain name hn
  · have elsewhere : (fs.relisted dir names).list path = fs.list path := if_neg here
    unfold Topology.shown at hn
    rw [elsewhere] at hn
    exact named path name hn

theorem Sysfs.Named.mounted {fs other : Sysfs} (named : fs.Named) (dir : Text) (named' : other.Named) :
    (fs.mounted dir other).Named := by
  intro path name hn
  have shown : Topology.shown (fs.mounted dir other) path =
      Topology.shown (if Path.Within dir path then other else fs) path := rfl
  rw [shown] at hn
  split at hn
  · exact named' path name hn
  · exact named path name hn

namespace Cycle

def goneLun : Text := Roots.specimen.lun "iqn.a".toList "1".toList "1".toList

def pruned : Sysfs :=
  (FileTree.specimen.sysfs.mounted goneLun FileTree.empty.sysfs).relisted (Roots.specimen.luns "iqn.a".toList "1".toList)
    ["lun_0".toList, "lun_2".toList]

theorem pruned_named : pruned.Named := by
  have empty : FileTree.empty.Legal := by decide +kernel
  exact (FileTree.specimen_legal.sysfs_named.mounted _ empty.sysfs_named).relisted _ (by decide)

theorem pruned_inserts :
    pruned.Inserts FileTree.specimen.sysfs Roots.specimen "iqn.a".toList "1".toList "1".toList where
  group := by
    refine ⟨⟨?_, by decide⟩, ?_⟩
    · decide +kernel
    · decide +kernel
  listed := ⟨["lun_0".toList], ["lun_2".toList], rfl, rfl, by decide⟩
  elsewhere path _ other apart := by
    change ¬ Path.Within goneLun path at apart
    constructor <;> simp only [pruned, Sysfs.relisted, Sysfs.mounted, if_neg other, if_neg apart]

theorem pruned_hollow : Hollow FileTree.specimen.sysfs Roots.specimen "iqn.a".toList "1".toList "1".toList := by
  have found : (Topology.readLink FileTree.specimen.sysfs goneLun).value =
      some ⟨"rd_mcp".toList, "1".toList, "gone".toList⟩ := rfl
  have known : BackstoreKind.ofToken? "rd_mcp".toList = some .rdmcp := rfl
  exact Hollow.unmatched found known rfl

/-- The LUN is walked to in the one and not in the other, its siblings are before and after it, and the samples are
    those of the disk in both. -/
theorem pruned_blind_to_hollow :
    (LunKey.specimen "1" "rd_mcp" "1" "gone", .rdmcp) ∈ Walk.yielded FileTree.specimen.sysfs Roots.specimen ∧
      (Walk.yielded pruned Roots.specimen).map (fun l => l.1.lun) = ["0".toList, "2".toList] ∧
      (deliveries (.steady pruned Recorder.send) Exporter.specimen Recorder.fresh).length = 3 ∧
      (run (.steady pruned Recorder.send) Exporter.specimen Recorder.fresh).ending =
        (run (.steady FileTree.specimen.sysfs Recorder.send) Exporter.specimen Recorder.fresh).ending ∧
      deliveries (.steady pruned Recorder.send) Exporter.specimen Recorder.fresh =
        deliveries (.steady FileTree.specimen.sysfs Recorder.send) Exporter.specimen Recorder.fresh := by
  have listed : (LunKey.specimen "1" "rd_mcp" "1" "gone", BackstoreKind.rdmcp) ∈
      Walk.yielded FileTree.specimen.sysfs Roots.specimen := by decide +kernel
  refine ⟨listed, by decide +kernel, by decide +kernel, ?_⟩
  exact run_blind_to_hollow pruned_named FileTree.specimen_legal.sysfs_named pruned_inserts (by decide) pruned_hollow
    Recorder.send Recorder.fresh

end Cycle
end LunMetrics
