import LunMetrics.Cycle.Walk
import LunMetrics.Proofs.FileTree.Listing
import LunMetrics.Proofs.Topology.Enumeration

/- What a walk over a legal file tree finds, told without loops. `Exported` says of a LUN that every
   directory entry on the way to it is there, that its group is enabled, and that the visible link with the
   least name among those that name a storage object names one of a known kind. What is proved:

   1. at every level the reads find exactly the entries of that level (`mem_readLuns_iff`,
      `mem_readGroups_iff`, `mem_readTargets_iff`), in strict code-point order of their labels
      (`readLuns_before`, `readGroups_before`, `readTargets_before`);
   2. the link of a LUN is the least suitable one (`backing?_eq_some_iff`);
   3. a walk taken one LUN at a time yields the LUNs of its beginning (`next_ready`, `next_under`);
   4. the walk lists exactly the exported LUNs, in strict order of their labels (`walk_lists_exports`). -/
namespace LunMetrics

/-! Directories on the way to a LUN. -/

namespace Roots

def target (r : Roots) (iqn : Text) : Text := Path.join r.iscsi iqn
def group (r : Roots) (iqn tag : Text) : Text := Path.join (r.target iqn) (Layout.groupStart ++ tag)
def luns (r : Roots) (iqn tag : Text) : Text := Path.join (r.group iqn tag) Layout.lunDir
def lun (r : Roots) (iqn tag lun : Text) : Text := Path.join (r.luns iqn tag) (Layout.lunStart ++ lun)

end Roots

/-- Whether a LUN comes before another one: by target, then by group, then by LUN. -/
def LunKey.Precedes (a b : LunKey) : Prop :=
  Text.Before a.iqn b.iqn ∨ a.iqn = b.iqn ∧
    (Text.Before a.tpgt b.tpgt ∨ a.tpgt = b.tpgt ∧ Text.Before a.lun b.lun)

theorem LunKey.Precedes.ne {a b : LunKey} (h : a.Precedes b) : a.exportLabels ≠ b.exportLabels := by
  intro e
  simp only [exportLabels, List.cons.injEq, and_true] at e
  obtain ⟨h₁, h₂, h₃⟩ := e
  rcases h with h | ⟨_, h | ⟨_, h⟩⟩
  · exact h.ne h₁
  · exact h.ne h₂
  · exact h.ne h₃

namespace FileTree

/-- Whether a name in a directory is a visible link that names a storage object. -/
structure PointsAt (t : FileTree) (dir name : Text) (link : BackstoreLink) : Prop where
  held : t.Holds dir name
  visible : isHidden name = false
  isLink : t.isLink (Path.join dir name) = true
  names : ∃ target, t.readLink (Path.join dir name) = .ok target ∧ BackstoreLink.parse? target = some link

/-- Whether the storage object is the one behind a LUN directory: of the visible links there that name any,
    the one with the least name names it. -/
def Backs (t : FileTree) (dir : Text) (link : BackstoreLink) : Prop :=
  ∃ name, t.PointsAt dir name link ∧
    ∀ name' link', t.PointsAt dir name' link' → name' = name ∨ Text.Before name name'

/-- Whether a tree exports a LUN of a kind. -/
structure Exported (t : FileTree) (r : Roots) (key : LunKey) (kind : BackstoreKind) : Prop where
  target : t.Holds r.iscsi key.iqn ∧ isHidden key.iqn = false ∧ Layout.iqnStart <+: key.iqn
  group : t.Holds (r.target key.iqn) (Layout.groupStart ++ key.tpgt)
  enabled : t.read (Path.join (r.group key.iqn key.tpgt) Layout.enable) = .ok Layout.enabledValue
  lun : t.Holds (r.luns key.iqn key.tpgt) (Layout.lunStart ++ key.lun)
  backs : t.Backs (r.lun key.iqn key.tpgt key.lun) key.link
  known : BackstoreKind.ofToken? key.link.store = some kind

end FileTree

namespace Topology

variable {t : FileTree}

/-! Names that a directory of a tree shows. -/

theorem mem_shown_iff (t : FileTree) (path name : Text) :
    name ∈ shown t.sysfs path ↔ t.Holds path name ∧ FileTree.isHidden name = false := by
  unfold shown
  rw [FileTree.sysfs_list]
  cases h : t.list path with
  | error f =>
    refine ⟨?_, ?_⟩
    · intro hn
      cases hn
    · intro hn
      obtain ⟨names, hl⟩ := hn.1.listed
      rw [h] at hl
      cases hl
  | ok names => exact FileTree.mem_list_iff h name

theorem shown_before (legal : t.Legal) (path : Text) : (shown t.sysfs path).Pairwise Text.Before := by
  unfold shown
  rw [FileTree.sysfs_list]
  cases h : t.list path with
  | error f => exact List.Pairwise.nil
  | ok names => exact FileTree.list_before legal h

/-! The link of a LUN directory. -/

theorem pointed?_eq_some_iff (fs : Sysfs) (dir name : Text) (link : BackstoreLink) :
    pointed? fs dir name = some link ↔
      fs.isLink (Path.join dir name) = true ∧
        ∃ target, fs.readLink (Path.join dir name) = .ok target ∧ BackstoreLink.parse? target = some link := by
  unfold pointed?
  cases hl : fs.isLink (Path.join dir name) with
  | false => simp
  | true =>
    cases hr : fs.readLink (Path.join dir name) with
    | error f => simp
    | ok target => simp

theorem pointsAt_iff (t : FileTree) (dir name : Text) (link : BackstoreLink) :
    t.PointsAt dir name link ↔ name ∈ shown t.sysfs dir ∧ pointed? t.sysfs dir name = some link := by
  rw [mem_shown_iff, pointed?_eq_some_iff]
  refine ⟨?_, ?_⟩
  · intro h
    exact ⟨⟨h.held, h.visible⟩, h.isLink, h.names⟩
  · intro h
    exact ⟨h.1.1, h.1.2, h.2.1, h.2.2⟩

theorem backing?_eq_some_iff (legal : t.Legal) (dir : Text) (link : BackstoreLink) :
    backing? t.sysfs dir = some link ↔ t.Backs dir link := by
  unfold backing? FileTree.Backs
  rw [findSome?_eq_some_iff_least (fun _ _ h => h.asymm) _ _ _ (shown_before legal dir)]
  simp only [pointsAt_iff]

/-! LUNs of a group. -/

theorem lunOf?_eq_some_iff (fs : Sysfs) (root name : Text) (e : LunEntry) :
    lunOf? fs root name = some e ↔
      name = Layout.lunStart ++ e.lun ∧ backing? fs (Path.join root name) = some e.link := by
  unfold lunOf?
  refine ⟨?_, ?_⟩
  · intro h
    obtain ⟨lun, hn, hl⟩ := Option.bind_eq_some_iff.1 h
    obtain ⟨link, hb, rfl⟩ := Option.map_eq_some_iff.1 hl
    exact ⟨(Text.after?_eq_some_iff _ _ _).1 hn, hb⟩
  · intro h
    rw [(Text.after?_eq_some_iff Layout.lunStart name e.lun).2 h.1, Option.bind_some, h.2]
    rfl

theorem mem_readLuns_iff (legal : t.Legal) (path : Text) (e : LunEntry) :
    e ∈ (readLuns t.sysfs path).value ↔
      t.Holds (Path.join path Layout.lunDir) (Layout.lunStart ++ e.lun) ∧
        t.Backs (Path.join (Path.join path Layout.lunDir) (Layout.lunStart ++ e.lun)) e.link := by
  rw [value_readLuns, List.mem_filterMap]
  -- no name of a LUN is hidden, since it does not begin with a dot
  simp only [lunOf?_eq_some_iff, backing?_eq_some_iff legal, mem_shown_iff]
  refine ⟨?_, ?_⟩
  · intro h
    obtain ⟨name, hn, rfl, hb⟩ := h
    exact ⟨hn.1, hb⟩
  · intro h
    exact ⟨_, ⟨h.1, rfl⟩, rfl, h.2⟩

theorem readLuns_before (legal : t.Legal) (path : Text) :
    (readLuns t.sysfs path).value.Pairwise fun e e' => Text.Before e.lun e'.lun := by
  rw [value_readLuns, List.pairwise_filterMap]
  apply (shown_before legal _).imp
  intro name name' hb e he e' he'
  rw [((lunOf?_eq_some_iff _ _ _ _).1 he).1, ((lunOf?_eq_some_iff _ _ _ _).1 he').1] at hb
  exact (Text.before_append_iff _ _ _).1 hb

/-! Groups of a target. -/

theorem isEnabled_iff (fs : Sysfs) (path : Text) :
    isEnabled fs path = true ↔ fs.read (Path.join path Layout.enable) = .ok Layout.enabledValue := by
  unfold isEnabled
  cases fs.read (Path.join path Layout.enable) with
  | error f => simp
  | ok value => simp

theorem groupOf?_eq_some_iff (fs : Sysfs) (target name : Text) (g : PortGroup) :
    groupOf? fs target name = some g ↔
      name = Layout.groupStart ++ g.tag ∧ (readGroup fs (Path.join target name) g.tag).value = g := by
  unfold groupOf?
  refine ⟨?_, ?_⟩
  · intro h
    obtain ⟨tag, hn, rfl⟩ := Option.map_eq_some_iff.1 h
    have htag : (readGroup fs (Path.join target name) tag).value.tag = tag := by rw [value_readGroup]
    rw [htag]
    exact ⟨(Text.after?_eq_some_iff _ _ _).1 hn, rfl⟩
  · intro h
    rw [(Text.after?_eq_some_iff Layout.groupStart name g.tag).2 h.1, Option.map_some, h.2]

theorem mem_readGroups_iff (t : FileTree) (path : Text) (g : PortGroup) :
    g ∈ (readGroups t.sysfs path).value ↔
      t.Holds path (Layout.groupStart ++ g.tag) ∧
        (readGroup t.sysfs (Path.join path (Layout.groupStart ++ g.tag)) g.tag).value = g := by
  rw [value_readGroups, List.mem_filterMap]
  simp only [groupOf?_eq_some_iff, mem_shown_iff]
  refine ⟨?_, ?_⟩
  · intro h
    obtain ⟨name, hn, rfl, hg⟩ := h
    exact ⟨hn.1, hg⟩
  · intro h
    exact ⟨_, ⟨h.1, rfl⟩, rfl, h.2⟩

/-- An enabled group of a target is one whose attribute says so, with its LUNs. -/
theorem mem_enabled_iff (t : FileTree) (path : Text) (g : PortGroup) :
    g ∈ (readGroups t.sysfs path).value ∧ g.enabled = true ↔
      t.Holds path (Layout.groupStart ++ g.tag) ∧
        t.read (Path.join (Path.join path (Layout.groupStart ++ g.tag)) Layout.enable) =
          .ok Layout.enabledValue ∧
        g = ⟨g.tag, true, (readLuns t.sysfs (Path.join path (Layout.groupStart ++ g.tag))).value⟩ := by
  rw [mem_readGroups_iff, value_readGroup, ← FileTree.sysfs_read, ← isEnabled_iff]
  refine ⟨?_, ?_⟩
  · intro h
    obtain ⟨⟨hh, hg⟩, he⟩ := h
    have hon : isEnabled t.sysfs (Path.join path (Layout.groupStart ++ g.tag)) = true := by
      rw [← hg] at he
      exact he
    rw [hon, if_pos rfl] at hg
    exact ⟨hh, hon, hg.symm⟩
  · intro h
    obtain ⟨hh, hon, hg⟩ := h
    rw [hon, if_pos rfl]
    refine ⟨⟨hh, hg.symm⟩, ?_⟩
    rw [hg]

theorem readGroups_before (legal : t.Legal) (path : Text) :
    (readGroups t.sysfs path).value.Pairwise fun g g' => Text.Before g.tag g'.tag := by
  rw [value_readGroups, List.pairwise_filterMap]
  apply (shown_before legal _).imp
  intro name name' hb g hg g' hg'
  rw [((groupOf?_eq_some_iff _ _ _ _).1 hg).1, ((groupOf?_eq_some_iff _ _ _ _).1 hg').1] at hb
  exact (Text.before_append_iff _ _ _).1 hb

/-! Targets. -/

theorem mem_readTargets_iff (r : Roots) {names : List Text} (h : t.list r.iscsi = .ok names) (x : Target) :
    x ∈ (readTargetsAmong t.sysfs r names).value ↔
      (t.Holds r.iscsi x.iqn ∧ FileTree.isHidden x.iqn = false ∧ Layout.iqnStart <+: x.iqn) ∧
        x.groups = (readGroups t.sysfs (r.target x.iqn)).value := by
  rw [value_readTargetsAmong, List.mem_map]
  simp only [List.mem_filter, FileTree.mem_list_iff h, List.isPrefixOf_iff_prefix]
  refine ⟨?_, ?_⟩
  · intro hx
    obtain ⟨iqn, ⟨⟨hh, hv⟩, hb⟩, rfl⟩ := hx
    exact ⟨⟨hh, hv, hb⟩, rfl⟩
  · intro hx
    obtain ⟨⟨hh, hv, hb⟩, hg⟩ := hx
    refine ⟨x.iqn, ⟨⟨hh, hv⟩, hb⟩, ?_⟩
    show Target.mk x.iqn (readGroups t.sysfs (r.target x.iqn)).value = x
    rw [← hg]

theorem readTargets_before (legal : t.Legal) (r : Roots) {names : List Text} (h : t.list r.iscsi = .ok names) :
    (readTargetsAmong t.sysfs r names).value.Pairwise fun x y => Text.Before x.iqn y.iqn := by
  rw [value_readTargetsAmong, List.pairwise_map]
  exact (FileTree.list_before legal h).filter _

end Topology

/-! The walk. -/

namespace Item

def groupLuns (iqn : Text) (g : PortGroup) : List (LunKey × BackstoreKind) :=
  g.luns.flatMap fun e => ((LunKey.ofEntry iqn g.tag e).kind?.map (LunKey.ofEntry iqn g.tag e, ·)).toList

/-- The LUNs of the enabled groups of a target. -/
def targetLuns (x : Target) : List (LunKey × BackstoreKind) :=
  (x.groups.filter (·.enabled)).flatMap (groupLuns x.iqn)

theorem luns_append (is js : List Item) : luns (is ++ js) = luns is ++ luns js := List.filterMap_append

theorem luns_flatMap {α : Type} (f : α → List Item) (xs : List α) :
    luns (xs.flatMap f) = xs.flatMap fun x => luns (f x) := by
  induction xs with
  | nil => rfl
  | cons x xs ih => rw [List.flatMap_cons, luns_append, ih, List.flatMap_cons]

theorem luns_ofLun (key : LunKey) : luns (ofLun key) = (key.kind?.map (key, ·)).toList := by
  unfold ofLun
  cases key.kind? <;> rfl

theorem luns_ofTargets (xs : List Target) : luns (ofTargets xs) = xs.flatMap targetLuns := by
  unfold ofTargets
  rw [luns_flatMap]
  congr 1
  funext x
  show luns ((x.groups.filter (·.enabled)).flatMap _) = _
  rw [luns_flatMap, targetLuns]
  congr 1
  funext g
  rw [luns_flatMap, groupLuns]
  simp only [luns_ofLun]

theorem mem_groupLuns_iff (iqn : Text) (g : PortGroup) (key : LunKey) (kind : BackstoreKind) :
    (key, kind) ∈ groupLuns iqn g ↔ ∃ e ∈ g.luns, key = LunKey.ofEntry iqn g.tag e ∧ key.kind? = some kind := by
  unfold groupLuns
  rw [List.mem_flatMap]
  refine ⟨?_, ?_⟩
  · intro h
    obtain ⟨e, he, hk⟩ := h
    rw [Option.mem_toList] at hk
    obtain ⟨kind', hk', heq⟩ := Option.map_eq_some_iff.1 hk
    cases heq
    exact ⟨e, he, rfl, hk'⟩
  · intro h
    obtain ⟨e, he, rfl, hk⟩ := h
    refine ⟨e, he, ?_⟩
    rw [hk]
    exact List.mem_singleton_self _

theorem mem_targetLuns_iff (x : Target) (key : LunKey) (kind : BackstoreKind) :
    (key, kind) ∈ targetLuns x ↔
      ∃ g, (g ∈ x.groups ∧ g.enabled = true) ∧ (key, kind) ∈ groupLuns x.iqn g := by
  unfold targetLuns
  simp only [List.mem_flatMap, List.mem_filter]

end Item

namespace Walk

theorem value_luns (fs : Sysfs) (r : Roots) :
    (luns fs r).value =
      match fs.list r.iscsi with
      | .error f => .error ⟨f⟩
      | .ok names => .ok ((Topology.readTargetsAmong fs r names).value.flatMap Item.targetLuns) := by
  have h : (items fs r).value = (Topology.read fs r).value.map Item.ofTargets := rfl
  unfold luns
  simp only [h, Topology.value_read]
  cases fs.list r.iscsi with
  | error f => rfl
  | ok names =>
    show Except.ok (Item.luns (Item.ofTargets _)) = _
    rw [Item.luns_ofTargets]

variable {t : FileTree}

theorem mem_targets_iff_exported (legal : t.Legal) (r : Roots) {names : List Text}
    (h : t.list r.iscsi = .ok names) (key : LunKey) (kind : BackstoreKind) :
    (key, kind) ∈ (Topology.readTargetsAmong t.sysfs r names).value.flatMap Item.targetLuns ↔
      t.Exported r key kind := by
  rw [List.mem_flatMap]
  refine ⟨?_, ?_⟩
  · intro hm
    obtain ⟨x, hx, hk⟩ := hm
    obtain ⟨htarget, hgroups⟩ := (Topology.mem_readTargets_iff r h x).1 hx
    obtain ⟨g, hg, hk⟩ := (Item.mem_targetLuns_iff x key kind).1 hk
    rw [hgroups, Topology.mem_enabled_iff] at hg
    obtain ⟨hgroup, henabled, hluns⟩ := hg
    obtain ⟨e, he, rfl, hkind⟩ := (Item.mem_groupLuns_iff x.iqn g key kind).1 hk
    rw [hluns, Topology.mem_readLuns_iff legal] at he
    exact ⟨htarget, hgroup, henabled, he.1, he.2, hkind⟩
  · intro hm
    have htarget : (⟨key.iqn, (Topology.readGroups t.sysfs (r.target key.iqn)).value⟩ : Target) ∈
        (Topology.readTargetsAmong t.sysfs r names).value :=
      (Topology.mem_readTargets_iff r h _).2 ⟨hm.target, rfl⟩
    refine ⟨_, htarget, (Item.mem_targetLuns_iff _ key kind).2 ?_⟩
    have hgroup := (Topology.mem_enabled_iff t (r.target key.iqn)
      ⟨key.tpgt, true, (Topology.readLuns t.sysfs (r.group key.iqn key.tpgt)).value⟩).2
        ⟨hm.group, hm.enabled, rfl⟩
    refine ⟨_, hgroup, (Item.mem_groupLuns_iff _ _ key kind).2 ?_⟩
    have hlun := (Topology.mem_readLuns_iff legal (r.group key.iqn key.tpgt) ⟨key.lun, key.link⟩).2
      ⟨hm.lun, hm.backs⟩
    exact ⟨_, hlun, rfl, hm.known⟩

theorem targets_precedes (legal : t.Legal) (r : Roots) {names : List Text} (h : t.list r.iscsi = .ok names) :
    ((Topology.readTargetsAmong t.sysfs r names).value.flatMap Item.targetLuns).Pairwise
      fun a b => a.1.Precedes b.1 := by
  rw [List.pairwise_flatMap]
  refine ⟨?_, ?_⟩
  · -- within one target, by group and then by LUN
    intro x hx
    have hgroups : x.groups = (Topology.readGroups t.sysfs (r.target x.iqn)).value :=
      ((Topology.mem_readTargets_iff r h x).1 hx).2
    unfold Item.targetLuns
    rw [List.pairwise_flatMap]
    refine ⟨?_, ?_⟩
    · intro g hg
      rw [List.mem_filter, hgroups, Topology.mem_enabled_iff] at hg
      obtain ⟨_, _, hluns⟩ := hg
      unfold Item.groupLuns
      rw [List.pairwise_flatMap]
      refine ⟨?_, ?_⟩
      · -- an entry stands for at most one LUN
        intro e _
        cases (LunKey.ofEntry x.iqn g.tag e).kind? with
        | none => exact List.Pairwise.nil
        | some kind => exact List.pairwise_singleton _ _
      · have hb : g.luns.Pairwise fun e e' => Text.Before e.lun e'.lun := by
          rw [hluns]
          exact Topology.readLuns_before legal _
        apply hb.imp
        intro e e' hb a ha b hb'
        rw [Option.mem_toList] at ha hb'
        obtain ⟨_, _, rfl⟩ := Option.map_eq_some_iff.1 ha
        obtain ⟨_, _, rfl⟩ := Option.map_eq_some_iff.1 hb'
        exact Or.inr ⟨rfl, Or.inr ⟨rfl, hb⟩⟩
    · -- groups of one target differ in the tag
      have hb : x.groups.Pairwise fun g g' => Text.Before g.tag g'.tag := by
        rw [hgroups]
        exact Topology.readGroups_before legal _
      apply (hb.filter _).imp
      intro g g' hb a ha b hb'
      obtain ⟨e, _, hk, _⟩ := (Item.mem_groupLuns_iff x.iqn g a.1 a.2).1 ha
      obtain ⟨e', _, hk', _⟩ := (Item.mem_groupLuns_iff x.iqn g' b.1 b.2).1 hb'
      rw [hk, hk']
      exact Or.inr ⟨rfl, Or.inl hb⟩
  · apply (Topology.readTargets_before legal r h).imp
    intro x y hb a ha b hb'
    obtain ⟨g, _, ha⟩ := (Item.mem_targetLuns_iff x a.1 a.2).1 ha
    obtain ⟨g', _, hb'⟩ := (Item.mem_targetLuns_iff y b.1 b.2).1 hb'
    obtain ⟨e, _, hk, _⟩ := (Item.mem_groupLuns_iff x.iqn g a.1 a.2).1 ha
    obtain ⟨e', _, hk', _⟩ := (Item.mem_groupLuns_iff y.iqn g' b.1 b.2).1 hb'
    rw [hk, hk']
    exact Or.inl hb

/-- A walk under way yields the LUNs that are left, one at a time, whatever the file systems answer by then. -/
theorem next_under (fs : Sysfs) (r : Roots) : ∀ is : List Item,
    (Item.luns is = [] ∧ (next fs r (.under is)).value = (.under [], .ok none)) ∨
      ∃ a rest, Item.luns is = a :: Item.luns rest ∧ (next fs r (.under is)).value = (.under rest, .ok (some a))
  | [] => Or.inl ⟨rfl, rfl⟩
  | .note _ :: is => next_under fs r is
  | .lun key kind :: is => Or.inr ⟨(key, kind), is, rfl, rfl⟩

/-- A walk begins by reading all LUNs, and it has ended if that fails. -/
theorem next_ready (fs : Sysfs) (r : Roots) :
    (∃ a, (luns fs r).value = .error a ∧ (next fs r .ready).value = (.under [], .error a)) ∨
      ∃ is, (luns fs r).value = .ok (Item.luns is) ∧ (next fs r .ready).value = (next fs r (.under is)).value := by
  unfold luns next
  simp only [Logged.value_bind]
  cases (items fs r).value with
  | error a => exact Or.inl ⟨a, rfl, rfl⟩
  | ok is => exact Or.inr ⟨is, rfl, rfl⟩

/-- A walk lists the exported LUNs, each once, in the order of their labels; without a listing of the export
    tree it fails before the first LUN. -/
theorem walk_lists_exports (legal : t.Legal) (r : Roots) :
    (∀ f, t.list r.iscsi = .error f → (luns t.sysfs r).value = .error ⟨f⟩) ∧
    (∀ names, t.list r.iscsi = .ok names → ∃ found, (luns t.sysfs r).value = .ok found ∧
      (∀ key kind, (key, kind) ∈ found ↔ t.Exported r key kind) ∧
      found.Pairwise (fun a b => a.1.Precedes b.1) ∧
      (found.map fun a => a.1.exportLabels).Nodup) := by
  refine ⟨?_, ?_⟩
  · intro f h
    rw [value_luns, FileTree.sysfs_list, h]
  · intro names h
    have order := targets_precedes legal r h
    refine ⟨_, ?_, mem_targets_iff_exported legal r h, order, ?_⟩
    · rw [value_luns, FileTree.sysfs_list, h]
    · unfold List.Nodup
      rw [List.pairwise_map]
      exact order.imp LunKey.Precedes.ne

end Walk

/-! A small tree. -/

def Roots.specimen : Roots := ⟨"s".toList, "c".toList⟩

/-- A LUN of the only group of the small tree. -/
def LunKey.specimen (lun store number object : String) : LunKey :=
  ⟨"iqn.a".toList, "1".toList, lun.toList, ⟨store.toList, number.toList, object.toList⟩⟩

/-- A target with three LUNs: a RAM disk, whose link has a hidden one, one without a storage object and a later
    one beside it; a RAM disk that is not there; and a file that does not tell its path. There is one mapped
    device. -/
def FileTree.specimen : FileTree :=
  let group := ["c", "target", "iscsi", "iqn.a", "tpgt_1"]
  let statistics := group ++ ["lun", "lun_0", "statistics"]
  let counters := statistics ++ ["scsi_tgt_port"]
  let entries : List (List String × Entry) :=
    [(["c"], .directory), (["c", "target"], .directory), (["c", "target", "iscsi"], .directory),
     (["c", "target", "iscsi", "iqn.a"], .directory), (group, .directory),
     (group ++ ["enable"], .file [0x31, 0x0a]), (group ++ ["lun"], .directory),
     (group ++ ["lun", "lun_0"], .directory),
     (group ++ ["lun", "lun_0", ".old"], .link "core/fileio_0/old".toList),
     (group ++ ["lun", "lun_0", "c"], .link "core/fileio_1/late".toList),
     (group ++ ["lun", "lun_0", "b"], .link "core/rd_mcp_0/disk".toList),
     (group ++ ["lun", "lun_0", "a"], .link "elsewhere".toList),
     (statistics, .directory), (counters, .directory),
     (counters ++ ["read_mbytes"], .file [0x37]), (counters ++ ["write_mbytes"], .file [0x30]),
     (counters ++ ["in_cmds"], .file [0x31, 0x32]),
     (group ++ ["lun", "lun_1"], .directory),
     (group ++ ["lun", "lun_1", "a"], .link "core/rd_mcp_1/gone".toList),
     (group ++ ["lun", "lun_2"], .directory),
     (group ++ ["lun", "lun_2", "a"], .link "core/fileio_2/broken".toList),
     (["c", "target", "core"], .directory), (["c", "target", "core", "rd_mcp_0"], .directory),
     (["c", "target", "core", "rd_mcp_0", "disk"], .directory),
     (["s"], .directory), (["s", "devices"], .directory), (["s", "devices", "rbd"], .directory),
     (["s", "devices", "rbd", "0"], .directory)]
  ⟨entries.map fun e => (e.1.map String.toList, e.2), false⟩

theorem FileTree.specimen_legal : specimen.Legal := by decide +kernel

namespace Walk

theorem specimen_luns :
    (luns FileTree.specimen.sysfs Roots.specimen).value =
      .ok [(LunKey.specimen "0" "rd_mcp" "0" "disk", .rdmcp), (LunKey.specimen "1" "rd_mcp" "1" "gone", .rdmcp),
        (LunKey.specimen "2" "fileio" "2" "broken", .fileio)] := rfl

/-- The small tree has a listing. -/
theorem specimen_lists_exports :
    ∃ found, (luns FileTree.specimen.sysfs Roots.specimen).value = .ok found ∧
      (∀ key kind, (key, kind) ∈ found ↔ FileTree.specimen.Exported Roots.specimen key kind) ∧
      found.Pairwise (fun a b => a.1.Precedes b.1) ∧ (found.map fun a => a.1.exportLabels).Nodup :=
  (walk_lists_exports FileTree.specimen_legal Roots.specimen).2 ["iqn.a".toList] rfl

end Walk
end LunMetrics
