import LunMetrics.Proofs.Path.Collapse
import LunMetrics.Proofs.Topology.Placement

/- The grammar of links to storage objects. A link is written as a prefix, a directory name made of type token and
   number, and an object name (`written`). What is proved:

   1. links whose names can stand in a path (`Writable`) are read back from what is written, whatever the prefix
      (`parse?_written`), and nothing else is ever read (`writable_of_parse?`);
   2. what is looked up for a link that was read stands two plain names below the tree of storage objects
      (`object_eq_append`);
   3. together with the normal form of the target, all that the reading of a link depends on
      (`parse?_reads_normal_form`). -/
namespace LunMetrics.BackstoreLink

def written (start : Text) (link : BackstoreLink) : Text := start ++ '/' :: (link.dirName ++ '/' :: link.object)

/-- Whether the names of a link can stand in a path and be told apart there. -/
structure Writable (link : BackstoreLink) : Prop where
  store : link.store ≠ [] ∧ '/' ∉ link.store
  number : '/' ∉ link.number ∧ '_' ∉ link.number
  object : Path.IsPlain link.object

variable {link : BackstoreLink}

theorem Writable.dirName (h : link.Writable) : Path.IsPlain link.dirName := by
  have underscore := link.underscore_mem_dirName
  constructor
  case toIsPart => exact ⟨List.ne_nil_of_mem underscore, by simp [BackstoreLink.dirName, h.store.2, h.number.1]⟩
  case notDot =>
    intro e
    rw [e] at underscore
    simp at underscore
  case notDotDot =>
    intro e
    rw [e] at underscore
    simp at underscore

/-- What is written after a prefix is what the normal form ends in. -/
theorem normalParts_written (start : Text) (h : link.Writable) :
    ∃ front, Path.normalParts (link.written start) = front ++ [link.dirName, link.object] := by
  have cut : (link.written start).splitOn '/' = start.splitOn '/' ++ [link.dirName, link.object] := by
    unfold written
    rw [List.splitOn_append_cons_self, List.splitOn_append_cons_self, List.splitOn_eq_singleton h.dirName.noSlash,
      List.splitOn_eq_singleton h.object.noSlash]
    rfl
  unfold Path.normalParts
  rw [cut, List.foldl_append, List.foldl_cons, List.foldl_cons, List.foldl_nil, Path.pushPart_plain _ _ h.dirName,
    Path.pushPart_plain _ _ h.object, List.reverse_cons, List.reverse_cons, List.append_assoc, List.singleton_append]
  exact ⟨_, rfl⟩

theorem parse?_written (start : Text) (h : link.Writable) : parse? (link.written start) = some link :=
  (parse?_eq_some_iff _ link).2 ⟨normalParts_written start h, h.number.2, h.store.1⟩

theorem writable_of_parse? {target : Text} (h : parse? target = some link) : link.Writable := by
  obtain ⟨_, noUnderscore, notEmpty⟩ := (parse?_eq_some_iff target link).1 h
  obtain ⟨store, number, object⟩ := parse?_plain h
  exact ⟨⟨notEmpty, store⟩, ⟨number, noUnderscore⟩, object⟩

theorem object_eq_append (r : Roots) (kind : BackstoreKind) (h : link.Writable) :
    r.object kind.dirName link.number link.object =
      r.core ++ '/' :: (Backstore.directoryName kind link ++ '/' :: link.object) := by
  have dir : Path.IsPart (Backstore.directoryName kind link) := (kind.isPlain_directory h.number.1).toIsPart
  calc r.object kind.dirName link.number link.object
      = Path.join (Path.join r.core (Backstore.directoryName kind link)) link.object := rfl
    _ = Path.join r.core (Backstore.directoryName kind link) ++ '/' :: link.object :=
      Path.join_of_open (Path.Open.join _ dir) h.object.toIsPart
    _ = r.core ++ '/' :: (Backstore.directoryName kind link ++ '/' :: link.object) := by
      rw [Path.join_of_open r.open_core dir, List.append_assoc, List.cons_append]

/-- How links are read, whatever their target:

    * a link is read exactly if the normal form of the target has at least two components, of which the last is the
      object name, and the one before it a type token that is not empty, an underscore, and a number without one;
    * a link with names that can stand in a path is read from what is written for it after any prefix;
    * a target that is written in another way gives the same link, or none as before;
    * the names that are read can stand in a path, so that for every kind what is looked up is two plain names below
      the tree of storage objects. -/
theorem parse?_reads_normal_form :
    (∀ target link, parse? target = some link ↔
      (∃ front, Path.NormalForm target (front ++ [link.dirName, link.object])) ∧ link.store ≠ [] ∧
        '_' ∉ link.number) ∧
    (∀ start link, link.Writable → parse? (link.written start) = some link) ∧
    (∀ target target', Path.Respelled target target' → parse? target' = parse? target) ∧
    ∀ target link, parse? target = some link → link.Writable ∧
      ∀ (r : Roots) (kind : BackstoreKind), Path.IsPlain (Backstore.directoryName kind link) ∧
        r.object kind.dirName link.number link.object =
          r.core ++ '/' :: (Backstore.directoryName kind link ++ '/' :: link.object) := by
  refine ⟨?_, fun start link => parse?_written start, ?_, ?_⟩
  · intro target link
    simp only [Path.normalForm_iff]
    rw [parse?_eq_some_iff, and_comm (a := '_' ∉ link.number)]
    simp only [eq_comm]
  · intro target target' respelled
    unfold parse?
    rw [Path.normalParts_of_respelled respelled]
  · intro target link h
    have writable := writable_of_parse? h
    exact ⟨writable, fun r kind => ⟨kind.isPlain_directory writable.number.1, object_eq_append r kind writable⟩⟩

/-- A link to a RAM disk, read with a detour on its way, with the directory that is then looked up. -/
theorem detour_reads_normal_form :
    let disk : BackstoreLink := ⟨"rd_mcp".toList, "0".toList, "disk".toList⟩
    disk.Writable ∧ Path.Respelled "../core/rd_mcp_0/disk".toList "../core/rd_mcp_0/old/../disk".toList ∧
      parse? "../core/rd_mcp_0/old/../disk".toList = some disk ∧
      Path.NormalForm "../core/rd_mcp_0/old/../disk".toList
        ["..".toList, "core".toList, "rd_mcp_0".toList, "disk".toList] ∧
      Roots.standard.object "rd_mcp".toList "0".toList "disk".toList =
        "/sys/kernel/config/target/core/rd_mcp_0/disk".toList := by
  intro disk
  obtain ⟨_, inverts, respells, confines⟩ := parse?_reads_normal_form
  have writable : disk.Writable := ⟨by decide, by decide, by decide⟩
  have detour : Path.Respelled "../core/rd_mcp_0/disk".toList "../core/rd_mcp_0/old/../disk".toList :=
    .detour "../core/rd_mcp_0".toList "disk".toList (by decide : Path.IsPlain "old".toList)
  have read : parse? "../core/rd_mcp_0/old/../disk".toList = some disk := by
    rw [respells _ _ detour]
    exact inverts "../core".toList disk writable
  refine ⟨writable, detour, read, (Path.normalForm_iff _ _).2 rfl, ?_⟩
  exact ((confines _ disk read).2 Roots.standard .rdmcp).2

end LunMetrics.BackstoreLink
