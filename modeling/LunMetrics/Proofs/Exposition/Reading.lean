import Mathlib.Data.List.Basic
import Mathlib.Data.List.TakeWhile
import Mathlib.Data.Nat.Digits.Defs
import LunMetrics.Exposition
import LunMetrics.Proofs.Order

/- Reading the text of a scrape. Commas, braces, quotes and spaces may stand in label values as well as between them, so
   labels are read from left to right by a reader that knows where it stands (`Spot`). What is written is read back:

   1. an escaped value ends at its closing quote, and nothing else does (`readLabels_value`), so labels are read back
      (`readLabels_labels`), and with them the line of a sample (`readLine_line`);
   2. no line has a line end in it, whatever the label values (`line_newline`, `lines_newline`);
   3. so the text of a scrape is cut at the line ends into its lines (`splitOn_text`), and from these the samples are
      read back (`readings_text`). -/
namespace LunMetrics

/-! Cutting and joining. -/

namespace Text

theorem splitOn_flatMap (sep : Char) : ∀ ls : List Text, (∀ l ∈ ls, sep ∉ l) →
    (ls.flatMap (· ++ [sep])).splitOn sep = ls ++ [[]]
  | [], _ => rfl
  | l :: ls, h => by
    have ih := splitOn_flatMap sep ls fun l' hl => h l' (List.mem_cons_of_mem l hl)
    rw [List.flatMap_cons, List.append_assoc, List.singleton_append,
      List.splitOn_append_cons_self_of_not_mem (h l List.mem_cons_self), ih]
    rfl

theorem mem_intercalate {c : Char} {sep : Text} : ∀ {ls : List Text},
    c ∈ sep.intercalate ls → c ∈ sep ∨ ∃ l ∈ ls, c ∈ l
  | [], h => by simp at h
  | [l], h => by simpa using Or.inr h
  | l :: m :: ls, h => by
    rw [List.intercalate_cons_cons, List.mem_append, List.mem_append] at h
    rcases h with (h | h) | h
    · exact Or.inr ⟨l, List.mem_cons_self, h⟩
    · exact Or.inl h
    · rcases mem_intercalate h with h | ⟨k, hk, h⟩
      · exact Or.inl h
      · exact Or.inr ⟨k, List.mem_cons_of_mem l hk, h⟩

end Text

namespace Exposition

/-! Labels. -/

/-- Where a reader of labels stands: in a name, before the opening quote, in a value, behind a backslash in a value, or
    behind a closing quote. -/
inductive Spot
  | name (read : Text)
  | opening (name : Text)
  | value (name read : Text)
  | escaped (name read : Text)
  | closed (name value : Text)
  deriving DecidableEq, Repr

/-- What a character behind a backslash stands for. -/
def unescapeChar (c : Char) : Char := if c = 'n' then '\n' else c

/-- The labels up to the closing brace, and what follows it. -/
def readLabels : Spot → Text → Option (List (Text × Text) × Text)
  | _, [] => none
  | .name n, c :: t => if c = '=' then readLabels (.opening n) t else readLabels (.name (n ++ [c])) t
  | .opening n, c :: t => if c = '"' then readLabels (.value n []) t else none
  | .value n v, c :: t =>
    if c = '"' then readLabels (.closed n v) t
    else if c = '\\' then readLabels (.escaped n v) t
    else readLabels (.value n (v ++ [c])) t
  | .escaped n v, c :: t => readLabels (.value n (v ++ [unescapeChar c])) t
  | .closed n v, c :: t =>
    if c = '\x7d' then some ([(n, v)], t)
    else if c = ',' then (readLabels (.name []) t).map fun rest => ((n, v) :: rest.1, rest.2)
    else none

theorem readLabels_name (t : Text) : ∀ name read : Text, '=' ∉ name →
    readLabels (.name read) (name ++ '=' :: t) = readLabels (.opening (read ++ name)) t
  | [], read, _ => by simp [readLabels]
  | c :: name, read, h => by
    simp only [List.mem_cons, not_or] at h
    rw [List.cons_append, readLabels, if_neg (Ne.symm h.1), readLabels_name t name _ h.2, List.append_assoc]
    rfl

/-- A value ends where it was closed, whatever characters it is made of. -/
theorem readLabels_value (name t : Text) : ∀ v read : Text,
    readLabels (.value name read) (escape v ++ '"' :: t) = readLabels (.closed name (read ++ v)) t
  | [], read => by simp [escape, readLabels]
  | c :: v, read => by
    have ih := readLabels_value name t v (read ++ [c])
    rw [List.append_assoc, List.singleton_append] at ih
    rw [← ih]
    show readLabels (.value name read) (escapeChar c ++ escape v ++ '"' :: t) = _
    -- the three characters that are written as two, and all others
    by_cases backslash : c = '\\'
    · subst backslash
      rfl
    by_cases quote : c = '"'
    · subst quote
      rfl
    by_cases newline : c = '\n'
    · subst newline
      rfl
    simp [escapeChar, readLabels, backslash, quote, newline]

theorem readLabels_label {l : Text × Text} (h : '=' ∉ l.1) (t : Text) :
    readLabels (.name []) (label l ++ t) = readLabels (.closed l.1 l.2) t := by
  have written : label l ++ t = l.1 ++ '=' :: ('"' :: (escape l.2 ++ '"' :: t)) := by simp [label]
  rw [written, readLabels_name _ _ _ h]
  simp only [readLabels, List.nil_append, if_true]
  rw [readLabels_value, List.nil_append]

theorem readLabels_intercalate (t : Text) : ∀ (l : Text × Text) (ls : List (Text × Text)), (∀ m ∈ l :: ls, '=' ∉ m.1) →
    readLabels (.name []) ([','].intercalate ((l :: ls).map label) ++ '\x7d' :: t) = some (l :: ls, t)
  | l, [], h => by
    simp only [List.map_cons, List.map_nil, List.intercalate_singleton]
    rw [readLabels_label (h l List.mem_cons_self)]
    rfl
  | l, m :: ls, h => by
    have ih := readLabels_intercalate t m ls fun k hk => h k (List.mem_cons_of_mem l hk)
    simp only [List.map_cons, List.intercalate_cons_cons, List.append_assoc] at ih ⊢
    rw [readLabels_label (h l List.mem_cons_self), List.singleton_append]
    simp only [readLabels]
    rw [ih]
    rfl

example : readLabels (.name []) "a=\"\\\"\x7d\",b=\",\"\x7d 1.0".toList =
    some ([("a".toList, ['"', '\x7d']), ("b".toList, [','])], " 1.0".toList) := rfl

/-! The line of a sample. -/

/-- Labels in the order of their names, in which they are written. -/
def inOrder (ls : List (Text × Text)) : List (Text × Text) := sortBy (fun a b => Text.le a.1 b.1) ls

/-- What is read off the line of a sample. -/
structure Reading where
  name : Text
  labels : List (Text × Text)
  value : Text
  deriving DecidableEq, Repr

/-- The reading of a line, if it is one of a sample: a name, labels in braces if there are any, and a value. -/
def readLine (line : Text) : Option Reading :=
  let name := line.takeWhile mayFollow
  match line.dropWhile mayFollow with
  | '\x7b' :: t =>
    match readLabels (.name []) t with
    | some (labels, ' ' :: value) => some ⟨name, labels, value⟩
    | _ => none
  | ' ' :: value => some ⟨name, [], value⟩
  | _ => none

def line (s : FamilySample) : Text := written s.name ++ labels s.labels ++ ' ' :: value s.value

def reading (s : FamilySample) : Reading := ⟨written s.name, inOrder s.labels, value s.value⟩

theorem mayFollow_of_written {name : Text} {c : Char} (h : c ∈ written name) : mayFollow c = true := by
  have underscore : mayFollow '_' = true := by decide
  cases name with
  | nil => cases h
  | cons d ds =>
    rcases List.mem_cons.1 h with rfl | h
    · split
      · next start => simp [mayFollow, start]
      · exact underscore
    · obtain ⟨e, _, rfl⟩ := List.mem_map.1 h
      split
      · next follow => exact follow
      · exact underscore

theorem span_written (name : Text) {c : Char} (h : mayFollow c = false) (t : Text) :
    (written name ++ c :: t).takeWhile mayFollow = written name ∧
      (written name ++ c :: t).dropWhile mayFollow = c :: t := by
  have all : ∀ d ∈ written name, mayFollow d = true := fun d hd => mayFollow_of_written hd
  rw [List.takeWhile_append_of_pos all, List.dropWhile_append_of_pos all]
  simp [h]

/-- The line of a sample tells name, labels and value. -/
theorem readLine_line {s : FamilySample} (h : ∀ l ∈ s.labels, '=' ∉ l.1) : readLine (line s) = some (reading s) := by
  unfold readLine line reading inOrder labels
  by_cases none : s.labels = []
  · obtain ⟨name, rest⟩ := span_written s.name (c := ' ') (by decide) (value s.value)
    simp only [none, if_true, List.append_nil, name, rest]
    rfl
  · rw [if_neg none]
    have perm := sortBy_perm (fun a b : Text × Text => Text.le a.1 b.1) s.labels
    cases hs : sortBy (fun a b : Text × Text => Text.le a.1 b.1) s.labels with
    | nil =>
      rw [hs] at perm
      exact absurd perm.nil_eq.symm none
    | cons l ls =>
      have names : ∀ m ∈ l :: ls, '=' ∉ m.1 := by
        intro m hm
        rw [← hs] at hm
        exact h m (perm.mem_iff.1 hm)
      obtain ⟨name, rest⟩ := span_written s.name (c := '\x7b') (by decide)
        ([','].intercalate ((l :: ls).map label) ++ '\x7d' :: ' ' :: value s.value)
      have assoc : written s.name ++ ('\x7b' :: [','].intercalate ((l :: ls).map label) ++ ['\x7d']) ++
          ' ' :: value s.value =
          written s.name ++ '\x7b' :: ([','].intercalate ((l :: ls).map label) ++ '\x7d' :: ' ' :: value s.value) := by
        simp
      simp only [assoc, name, rest, readLabels_intercalate _ l ls names]

/-! Line ends. -/

theorem escape_newline (t : Text) : '\n' ∉ escape t := by
  unfold escape
  rw [List.mem_flatMap]
  rintro ⟨c, -, h⟩
  unfold escapeChar at h
  split at h
  · simp at h
  · split at h
    · simp at h
    · split at h
      · simp at h
      · next other => simp [Ne.symm other] at h

theorem labels_newline {ls : List (Text × Text)} (h : ∀ l ∈ ls, '\n' ∉ l.1) : '\n' ∉ labels ls := by
  unfold labels
  split
  · simp
  · intro hm
    simp only [List.cons_append, List.mem_cons, List.mem_append, List.not_mem_nil, or_false] at hm
    rcases hm with e | hm | e
    · cases e
    · rcases Text.mem_intercalate hm with e | ⟨l, hl, hm⟩
      · simp at e
      · obtain ⟨k, hk, rfl⟩ := List.mem_map.1 hl
        have name := h k ((sortBy_perm _ ls).mem_iff.1 hk)
        simp [label, name, escape_newline] at hm
    · cases e

theorem ofNat_newline (n : Nat) : '\n' ∉ Text.ofNat n := by
  intro h
  have digit := Nat.isDigit_of_mem_toDigits (by decide) (by decide) h
  cases digit

theorem pointed_newline {ds : Text} (h : '\n' ∉ ds) : '\n' ∉ pointed ds := by
  unfold pointed
  split
  · exact h
  · exact h
  · simp only [List.mem_cons, not_or] at h ⊢
    exact ⟨h.1, by decide, h.2⟩

theorem exponent_newline (e : Nat) : '\n' ∉ exponent e := by
  have digits := ofNat_newline e
  simp only [exponent, List.mem_cons, not_or]
  refine ⟨by decide, by decide, ?_⟩
  split
  · simp [digits]
  · exact digits

theorem decimal_newline (places n : Nat) : '\n' ∉ decimal places n := by
  have digits := ofNat_newline (Binary64.shortest n).1
  unfold decimal
  simp only
  split
  · simp [digits]
  · rw [List.mem_append, not_or]
    refine ⟨pointed_newline ?_, exponent_newline _⟩
    intro h
    exact digits (List.mem_reverse.1 ((List.dropWhile_sublist _).mem (List.mem_reverse.1 h)))

theorem value_newline (z : Int) : '\n' ∉ value z := by
  unfold value
  split
  · decide
  · split
    · simp [decimal_newline]
    · exact decimal_newline 6 _

theorem written_newline (name : Text) : '\n' ∉ written name := by
  intro h
  have follow := mayFollow_of_written h
  cases follow

theorem line_newline {s : FamilySample} (h : ∀ l ∈ s.labels, '\n' ∉ l.1) : '\n' ∉ line s := by
  simp [line, written_newline, labels_newline h, value_newline]

/-! The text. -/

def helpLine (f : Family) : Text := "# HELP ".toList ++ written f.sampleName ++ ' ' :: f.documentation

def typeLine (f : Family) : Text := "# TYPE ".toList ++ written f.sampleName ++ ' ' :: f.kind.name.toList

def lines (f : Family) : List Text := helpLine f :: typeLine f :: f.samples.map line

theorem header_eq (f : Family) : header f = helpLine f ++ '\n' :: (typeLine f ++ ['\n']) := by
  have type : "\n# TYPE ".toList = '\n' :: "# TYPE ".toList := rfl
  unfold header helpLine typeLine
  rw [type]
  simp only [List.append_assoc, List.cons_append]

theorem family_eq (f : Family) : family f = (lines f).flatMap (· ++ ['\n']) := by
  have samples : f.samples.flatMap sampleLine = (f.samples.map line).flatMap (· ++ ['\n']) := by
    rw [List.flatMap_map]
    rfl
  unfold family lines
  rw [header_eq, samples, List.flatMap_cons, List.flatMap_cons]
  simp only [List.append_assoc, List.cons_append, List.nil_append]

theorem text_eq (fs : List Family) : text fs = (fs.flatMap lines).flatMap (· ++ ['\n']) := by
  unfold text
  rw [List.flatMap_assoc]
  exact List.flatMap_congr fun f _ => family_eq f

/-- Whether the documentation of a family and the names of its labels can be written as they are. -/
structure Writable (f : Family) : Prop where
  documentation : '\n' ∉ f.documentation
  names : ∀ s ∈ f.samples, ∀ l ∈ s.labels, '=' ∉ l.1 ∧ '\n' ∉ l.1

theorem lines_newline {f : Family} (h : Writable f) : ∀ l ∈ lines f, '\n' ∉ l := by
  have help : '\n' ∉ "# HELP ".toList := by decide
  have type : '\n' ∉ "# TYPE ".toList := by decide
  have kind : '\n' ∉ f.kind.name.toList := by cases f.kind <;> decide
  have rest : ∀ {t : Text}, '\n' ∉ t → '\n' ∉ ' ' :: t := fun h => List.not_mem_cons_of_ne_of_not_mem (by decide) h
  unfold lines
  refine List.forall_mem_cons.2 ⟨?_, List.forall_mem_cons.2 ⟨?_, ?_⟩⟩
  · exact List.not_mem_append (List.not_mem_append help (written_newline _)) (rest h.documentation)
  · exact List.not_mem_append (List.not_mem_append type (written_newline _)) (rest kind)
  · intro l hl
    obtain ⟨s, hs, rfl⟩ := List.mem_map.1 hl
    exact line_newline fun l hl => (h.names s hs l hl).2

theorem filterMap_lines {f : Family} (h : Writable f) : (lines f).filterMap readLine = f.samples.map reading := by
  have help : readLine (helpLine f) = none := rfl
  have type : readLine (typeLine f) = none := rfl
  unfold lines
  rw [List.filterMap_cons_none help, List.filterMap_cons_none type, List.filterMap_map, ← List.filterMap_eq_map]
  apply List.filterMap_congr
  intro s hs
  exact readLine_line fun l hl => (h.names s hs l hl).1

section
variable {fs : List Family} (h : ∀ f ∈ fs, Writable f)
include h

/-- A text is cut at the line ends into its lines, with nothing after the last. -/
theorem splitOn_text : (text fs).splitOn '\n' = fs.flatMap lines ++ [[]] := by
  rw [text_eq, Text.splitOn_flatMap]
  intro l hl
  obtain ⟨f, hf, hl⟩ := List.mem_flatMap.1 hl
  exact lines_newline (h f hf) l hl

theorem readings_text :
    ((text fs).splitOn '\n').filterMap readLine = fs.flatMap fun f => f.samples.map reading := by
  have blank : [([] : Text)].filterMap readLine = [] := rfl
  rw [splitOn_text h, List.filterMap_append, blank, List.append_nil, List.filterMap_flatMap]
  exact List.flatMap_congr fun f hf => filterMap_lines (h f hf)

end

end Exposition
end LunMetrics
