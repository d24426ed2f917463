import Mathlib.Data.List.Basic
import Mathlib.Data.List.Induction
import LunMetrics.Path

/- Paths that go down from a directory by names. A part (`IsPart`) is a name without a slash; joined to a directory
   that has no slash at its end (`Open`), it is what follows the last slash. `Within` says that a path is a
   directory or lies below it, as texts. What is proved:

   1. a joined path tells its directory and its part (`join_inj`), so parts on the way down from one directory
      are told by the path (`joinAll_inj`);
   2. what lies within a joined path, and within which directories a joined path lies (`within_join`,
      `within_joinAll`);
   3. of two ways down from one directory, one leads to a place within the other's exactly if it begins with
      the other (`within_joinAll_iff`). -/
namespace LunMetrics.Path

/-! Parts. -/

/-- What can stand between two slashes. -/
structure IsPart (name : Text) : Prop where
  notEmpty : name ≠ []
  noSlash : '/' ∉ name

instance (name : Text) : Decidable (IsPart name) :=
  decidable_of_iff (name ≠ [] ∧ '/' ∉ name) ⟨fun ⟨h₁, h₂⟩ => ⟨h₁, h₂⟩, fun ⟨h₁, h₂⟩ => ⟨h₁, h₂⟩⟩

theorem isPart_append {start rest : Text} (h : IsPart start) (noSlash : '/' ∉ rest) : IsPart (start ++ rest) where
  notEmpty := by simp [h.notEmpty]
  noSlash := by simp [h.noSlash, noSlash]

theorem IsPart.not_absolute {name : Text} (h : IsPart name) : isAbsolute name = false := by
  unfold isAbsolute
  cases name with
  | nil => rfl
  | cons c name =>
    have hc : c ≠ '/' := by
      intro e
      rw [e] at h
      exact h.noSlash List.mem_cons_self
    simp [hc]

/-- A directory that a name is joined to with a slash. -/
structure Open (dir : Text) : Prop where
  notEmpty : dir ≠ []
  noSlash : dir.getLast? ≠ some '/'

theorem join_of_open {dir name : Text} (ho : Open dir) (h : IsPart name) : join dir name = dir ++ '/' :: name := by
  unfold join
  rw [if_neg (by simp [h.not_absolute]), if_neg]
  simp [ho.notEmpty, ho.noSlash]

/-- Relative paths joined to one directory follow one beginning. -/
theorem exists_join_eq_append (dir : Text) :
    ∃ front, ∀ name, isAbsolute name = false → join dir name = front ++ name := by
  by_cases closed : dir.isEmpty || dir.getLast? = some '/'
  · refine ⟨dir, fun name relative => ?_⟩
    rw [join, if_neg (by simp [relative]), if_pos closed]
  · refine ⟨dir ++ ['/'], fun name relative => ?_⟩
    rw [join, if_neg (by simp [relative]), if_neg closed, List.append_assoc, List.singleton_append]

theorem open_join {dir name : Text} (relative : isAbsolute name = false) (ho : Open name) : Open (join dir name) := by
  obtain ⟨front, hf⟩ := exists_join_eq_append dir
  rw [hf name relative]
  refine ⟨by simp [ho.notEmpty], ?_⟩
  rw [List.getLast?_append_of_ne_nil front ho.notEmpty]
  exact ho.noSlash

theorem join_join (dir a b : Text) (relative : isAbsolute a = false) (ho : Open a) (hb : IsPart b) :
    join (join dir a) b = join dir (a ++ '/' :: b) := by
  obtain ⟨front, hf⟩ := exists_join_eq_append dir
  have longer : isAbsolute (a ++ '/' :: b) = false := by
    unfold isAbsolute at relative ⊢
    rw [List.head?_append_of_ne_nil a ho.notEmpty]
    exact relative
  rw [join_of_open (open_join relative ho) hb, hf a relative, hf _ longer, List.append_assoc]

theorem IsPart.toOpen {name : Text} (h : IsPart name) : Open name where
  notEmpty := h.notEmpty
  noSlash := by
    intro hl
    exact h.noSlash (List.mem_of_getLast? hl)

theorem Open.join (dir : Text) {name : Text} (h : IsPart name) : Open (Path.join dir name) :=
  open_join h.not_absolute h.toOpen

theorem Open.joinAll {dir : Text} (ho : Open dir) : ∀ {names : List Text}, (∀ n ∈ names, IsPart n) →
    Open (Path.joinAll dir names)
  | [], _ => ho
  | n :: names, h => by
    have hn := h n List.mem_cons_self
    exact Open.joinAll (Open.join dir hn) fun m hm => h m (List.mem_cons_of_mem n hm)

theorem joinAll_append (dir : Text) (names more : List Text) :
    joinAll dir (names ++ more) = joinAll (joinAll dir names) more := List.foldl_append

theorem joinAll_concat (dir : Text) (names : List Text) (name : Text) :
    joinAll dir (names ++ [name]) = join (joinAll dir names) name := joinAll_append dir names [name]

/-! What a joined path tells. -/

theorem join_inj {dir dir' name name' : Text} (ho : Open dir) (ho' : Open dir') (h : IsPart name)
    (h' : IsPart name') (e : join dir name = join dir' name') : dir = dir' ∧ name = name' := by
  rw [join_of_open ho h, join_of_open ho' h'] at e
  -- both are cut at the last slash
  have cut := (Text.cutLast?_eq_some_iff '/' dir name _).2 ⟨rfl, h.noSlash⟩
  rw [(Text.cutLast?_eq_some_iff '/' dir' name' _).2 ⟨e, h'.noSlash⟩] at cut
  cases cut
  exact ⟨rfl, rfl⟩

/-! Within a directory. -/

/-- Whether a path is a directory or lies below it, as texts. -/
def Within (dir path : Text) : Prop := path = dir ∨ ∃ rest, path = dir ++ '/' :: rest

instance (dir path : Text) : Decidable (Within dir path) :=
  decidable_of_iff (path = dir ∨ dir ++ ['/'] <+: path) (by
    unfold Within
    refine or_congr_right ⟨?_, ?_⟩
    · intro h
      obtain ⟨rest, h⟩ := h
      exact ⟨rest, by rw [← h]; simp⟩
    · intro h
      obtain ⟨rest, h⟩ := h
      exact ⟨rest, by rw [h]; simp⟩)

theorem Within.refl (dir : Text) : Within dir dir := Or.inl rfl

theorem Within.trans {a b c : Text} (h : Within a b) (h' : Within b c) : Within a c := by
  rcases h' with rfl | ⟨rest', rfl⟩
  · exact h
  · rcases h with rfl | ⟨rest, rfl⟩
    · exact Or.inr ⟨rest', rfl⟩
    · exact Or.inr ⟨rest ++ '/' :: rest', by simp⟩

theorem Within.begins {dir path : Text} (h : Within dir path) : dir <+: path := by
  rcases h with rfl | ⟨rest, rfl⟩
  · exact List.prefix_refl _
  · exact List.prefix_append _ _

theorem within_joined {dir : Text} (ho : Open dir) {name : Text} (h : IsPart name) : Within dir (join dir name) :=
  Or.inr ⟨name, join_of_open ho h⟩

theorem within_join {top dir name : Text} (ho : Open dir) (h : IsPart name) (hw : Within top (join dir name)) :
    top = join dir name ∨ Within top dir := by
  rcases hw with e | ⟨rest, e⟩
  · exact Or.inl e.symm
  · right
    rw [join_of_open ho h] at e
    -- the slash after `top` is the last one, or it stands before it
    rcases List.append_eq_append_iff.1 e with ⟨mid, rfl, hm⟩ | ⟨mid, rfl, hm⟩
    · rcases List.append_eq_cons_iff.1 hm.symm with ⟨rfl, _⟩ | ⟨mid', rfl, hn⟩
      · exact Or.inl (by simp)
      · exact absurd (by rw [hn]; simp) h.noSlash
    · rcases List.append_eq_cons_iff.1 hm.symm with ⟨rfl, _⟩ | ⟨mid', rfl, _⟩
      · exact Or.inl (by simp)
      · exact Or.inr ⟨mid', rfl⟩

theorem within_joinAll_of {dir : Text} (ho : Open dir) :
    ∀ {names : List Text}, (∀ n ∈ names, IsPart n) → Within dir (joinAll dir names)
  | [], _ => Within.refl dir
  | n :: names, h => by
    have hn := h n List.mem_cons_self
    have rest := within_joinAll_of (Open.join dir hn) fun m hm => h m (List.mem_cons_of_mem n hm)
    exact (within_joined ho hn).trans rest

/-- What a way down lies within: what it starts within, or a place on the way. -/
theorem within_joinAll {top dir : Text} (ho : Open dir) {names : List Text} (h : ∀ n ∈ names, IsPart n)
    (hw : Within top (joinAll dir names)) :
    Within top dir ∨ ∃ front last, front ++ [last] <+: names ∧ top = join (joinAll dir front) last := by
  -- the induction takes the last name off
  induction names using List.reverseRecOn with
  | nil => exact Or.inl hw
  | append_singleton names n ih =>
    have hnames : ∀ m ∈ names, IsPart m := fun m hm => h m (List.mem_append_left _ hm)
    have hn : IsPart n := h n (by simp)
    rw [joinAll_concat] at hw
    rcases within_join (ho.joinAll hnames) hn hw with e | hw
    · exact Or.inr ⟨names, n, List.prefix_refl _, e⟩
    · rcases ih hnames hw with hd | ⟨front, last, hp, e⟩
      · exact Or.inl hd
      · exact Or.inr ⟨front, last, hp.trans (List.prefix_append _ _), e⟩

theorem length_joinAll_lt {dir : Text} (ho : Open dir) {names : List Text} (h : ∀ n ∈ names, IsPart n)
    (some_name : names ≠ []) : dir.length < (joinAll dir names).length := by
  cases names with
  | nil => exact absurd rfl some_name
  | cons n names =>
    have hn := h n List.mem_cons_self
    have first : dir.length < (join dir n).length := by
      rw [join_of_open ho hn]
      simp
    have rest := (within_joinAll_of (Open.join dir hn) fun m hm =>
      h m (List.mem_cons_of_mem n hm)).begins.length_le
    exact Nat.lt_of_lt_of_le first rest

theorem joinAll_inj {dir : Text} (ho : Open dir) {as bs : List Text} (ha : ∀ n ∈ as, IsPart n)
    (hb : ∀ n ∈ bs, IsPart n) (e : joinAll dir as = joinAll dir bs) : as = bs := by
  induction as using List.reverseRecOn generalizing bs with
  | nil =>
    by_contra hne
    have := length_joinAll_lt ho hb (Ne.symm hne)
    rw [← e] at this
    exact Nat.lt_irrefl _ this
  | append_singleton as a ih =>
    rcases List.eq_nil_or_concat bs with rfl | ⟨bs, b, rfl⟩
    · have := length_joinAll_lt ho ha (by simp)
      rw [e] at this
      exact absurd this (Nat.lt_irrefl _)
    · rw [List.concat_eq_append] at hb e ⊢
      have ha' : ∀ n ∈ as, IsPart n := fun n hn => ha n (List.mem_append_left _ hn)
      have hb' : ∀ n ∈ bs, IsPart n := fun n hn => hb n (List.mem_append_left _ hn)
      rw [joinAll_concat, joinAll_concat] at e
      obtain ⟨hdir, hname⟩ := join_inj (ho.joinAll ha') (ho.joinAll hb') (ha a (by simp)) (hb b (by simp)) e
      rw [ih ha' hb' hdir, hname]

/-- Of two ways down from one directory, one leads to a place within the other's exactly if it begins with the
    other. -/
theorem within_joinAll_iff {dir : Text} (ho : Open dir) {as bs : List Text} (ha : ∀ n ∈ as, IsPart n)
    (hb : ∀ n ∈ bs, IsPart n) : Within (joinAll dir as) (joinAll dir bs) ↔ as <+: bs := by
  refine ⟨?_, ?_⟩
  · intro hw
    rcases within_joinAll ho hb hw with hd | ⟨front, last, hp, e⟩
    · -- nothing but the start is above the start
      have none_left : as = [] := by
        by_contra hne
        exact Nat.not_lt.2 hd.begins.length_le (length_joinAll_lt ho ha hne)
      rw [none_left]
      exact List.nil_prefix
    · rw [← joinAll_concat] at e
      have hf : ∀ n ∈ front ++ [last], IsPart n := fun n hn => hb n (hp.subset hn)
      rw [joinAll_inj ho ha hf e]
      exact hp
  · intro hp
    obtain ⟨rest, rfl⟩ := hp
    rw [joinAll_append]
    exact within_joinAll_of (ho.joinAll ha) fun n hn => hb n (List.mem_append_right _ hn)

end LunMetrics.Path
