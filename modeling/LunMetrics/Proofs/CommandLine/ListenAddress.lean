import LunMetrics.CommandLine.Session
import LunMetrics.Proofs.Outcome
import LunMetrics.Proofs.Text.Numerals

/- The addresses to listen on. A text is an address if and only if a numeral follows its last colon (`IsAddress`,
   `parse_eq_ok_iff`); every other text is refused. A host is read as it was written, be it in brackets or bare, and may
   hold colons itself (`parse_bracketed`, `parse_bare`). The run of the program depends on this one distinction: a text
   that is no address ends it before anything is registered or started (`serve_refused`), and an address is the one that
   is served (`serve_address`). -/
namespace LunMetrics

namespace ListenAddress

/-- A text with a numeral after its last colon. -/
def IsAddress (a : Text) : Prop := ∃ host port, a = host ++ ':' :: port ∧ ':' ∉ port ∧ Text.IsNumeral port

def Bracketed (host : Text) : Prop := host.head? = some '[' ∧ host.getLast? = some ']'

def hostOrAny (host : Text) : Text := if host = [] then anyHost else host

/-- What an address denotes, and that nothing else denotes anything. -/
theorem parse_eq_ok_iff {a : Text} {r : ListenAddress} :
    parse a = .ok r ↔ ∃ host port, a = host ++ ':' :: port ∧ ':' ∉ port ∧ Text.IsNumeral port ∧
      r = ⟨hostOrAny (unbracket host), Text.number port⟩ := by
  constructor
  · intro h
    unfold parse at h
    cases cut : Text.cutLast? ':' a with
    | none => rw [cut] at h; cases h
    | some pieces =>
      obtain ⟨host, port⟩ := pieces
      rw [cut] at h
      simp only at h
      obtain ⟨whole, last⟩ := (Text.cutLast?_eq_some_iff ':' host port a).1 cut
      split at h
      · obtain ⟨n, value, rfl⟩ := Except.map_eq_ok_iff.1 h
        obtain ⟨numeral, rfl⟩ := Text.natural_eq_ok_iff.1 (Except.mapError_eq_ok_iff.1 value)
        exact ⟨host, port, whole, last, numeral, rfl⟩
      · cases h
  · rintro ⟨host, port, whole, last, numeral, rfl⟩
    unfold parse
    rw [(Text.cutLast?_eq_some_iff ':' host port a).2 ⟨whole, last⟩]
    simp only
    rw [if_pos numeral.areDigits, Text.natural_eq_ok_iff.2 ⟨numeral, rfl⟩]
    rfl

theorem exists_parse_iff {a : Text} : (∃ r, parse a = .ok r) ↔ IsAddress a := by
  constructor
  · rintro ⟨r, h⟩
    obtain ⟨host, port, whole, last, numeral, _⟩ := parse_eq_ok_iff.1 h
    exact ⟨host, port, whole, last, numeral⟩
  · rintro ⟨host, port, whole, last, numeral⟩
    exact ⟨_, parse_eq_ok_iff.2 ⟨host, port, whole, last, numeral, rfl⟩⟩

theorem exists_error_iff {a : Text} : (∃ f, parse a = .error f) ↔ ¬IsAddress a := by
  rw [← exists_parse_iff]
  cases parse a <;> simp

/-! Addresses as they are written. -/

theorem isNumeral_ofNat {p : Nat} (short : (Text.ofNat p).length ≤ Text.maxDigits) : Text.IsNumeral (Text.ofNat p) :=
  Text.isNumeral_padded (k := 0) short

theorem colon_not_mem {t : Text} (h : Text.IsNumeral t) : ':' ∉ t := by
  intro hc
  have := h.decimal ':' hc
  revert this
  decide

/-- The port that is written last is the port that is read. -/
theorem parse_host (host : Text) {p : Nat} (short : (Text.ofNat p).length ≤ Text.maxDigits) :
    parse (host ++ ':' :: Text.ofNat p) = .ok ⟨hostOrAny (unbracket host), p⟩ := by
  have numeral := isNumeral_ofNat short
  have value : Text.number (Text.ofNat p) = p := Text.number_padded 0 p
  exact parse_eq_ok_iff.2 ⟨host, Text.ofNat p, rfl, colon_not_mem numeral, numeral, by rw [value]⟩

theorem unbracket_bracketed (host : Text) : unbracket ('[' :: host ++ [']']) = host := by
  have last : ('[' :: host ++ [']']).getLast? = some ']' := List.getLast?_concat
  unfold unbracket
  rw [last, List.cons_append, List.head?_cons, if_pos (by decide), List.tail_cons, List.dropLast_concat]

theorem unbracket_bare {host : Text} (bare : ¬Bracketed host) : unbracket host = host := by
  unfold unbracket
  rw [if_neg]
  simpa [Bracketed] using bare

theorem parse_bracketed (host : Text) {p : Nat} (short : (Text.ofNat p).length ≤ Text.maxDigits) :
    parse ('[' :: host ++ ']' :: ':' :: Text.ofNat p) = .ok ⟨hostOrAny host, p⟩ := by
  have := parse_host ('[' :: host ++ [']']) short
  rwa [unbracket_bracketed, List.append_assoc] at this

theorem parse_bare {host : Text} (bare : ¬Bracketed host) {p : Nat}
    (short : (Text.ofNat p).length ≤ Text.maxDigits) :
    parse (host ++ ':' :: Text.ofNat p) = .ok ⟨hostOrAny host, p⟩ := by
  rw [parse_host host short, unbracket_bare bare]

end ListenAddress

namespace CommandLine

open ListenAddress

/-! Runs. -/

/-- Whether a run ended with nothing registered and no server started, and said so by its exit code. -/
structure Session.Refused (x : Session) : Prop where
  exit : x.exitCode = 2
  unregistered : x.roots = none
  unserved : x.server = none

/-- Whether a run registered an exporter of these mount points and served it at this address until it was
    interrupted. -/
structure Session.Served (x : Session) (roots : Roots) (address : ListenAddress) : Prop where
  exit : x.exitCode = 0
  registered : x.roots = some roots
  server : x.server = some address

theorem run_of_parse {arguments : List Text} {s : Settings} (parsed : CommandLine.parse arguments = .ok s)
    (wakeups : Nat) : run arguments wakeups = serve s wakeups := by
  unfold run
  rw [parsed]

section
variable {s : Settings} {level a : Text} (log : s.log = some level) (listen : s.listen = some a) (wakeups : Nat)
include log listen

theorem serve_refused {f : AddressFault} (bad : ListenAddress.parse a = .error f) :
    ∃ x, serve s wakeups = .ok x ∧ x.Refused := by
  unfold serve
  rw [log, listen]
  simp only [need, bind, Except.bind, bad]
  exact ⟨_, rfl, rfl, rfl, rfl⟩

theorem serve_served {address : ListenAddress} (good : ListenAddress.parse a = .ok address) {sysfs configfs : Text}
    (hs : s.sysfs = some sysfs) (hc : s.configfs = some configfs) :
    ∃ x, serve s wakeups = .ok x ∧ x.Served ⟨sysfs, configfs⟩ address := by
  unfold serve
  rw [log, listen, hs, hc]
  simp only [need, bind, Except.bind, good]
  exact ⟨_, rfl, rfl, rfl, rfl⟩

theorem not_refused {address : ListenAddress} (good : ListenAddress.parse a = .ok address) {x : Session}
    (h : serve s wakeups = .ok x) : ¬x.Refused := by
  unfold serve at h
  rw [log, listen] at h
  simp only [need, bind, Except.bind, good] at h
  intro refused
  cases hc : s.configfs with
  | none => rw [hc] at h; cases h
  | some configfs =>
    cases hs : s.sysfs with
    | none => rw [hc, hs] at h; cases h
    | some sysfs =>
      rw [hc, hs] at h
      cases h
      cases refused.exit

end

/-- The grammar of addresses decides. Exactly the texts with a numeral after the last colon denote an address; any host
    and port are read as they were written. A run whose arguments are in order and leave a text for the severity and for
    the address is refused if and only if this is no address, and otherwise, if they leave the mount points too, serves
    these at the address. -/
theorem address_decides :
    (∀ a, (∃ r, ListenAddress.parse a = .ok r) ↔ IsAddress a) ∧
    (∀ a, (∃ f, ListenAddress.parse a = .error f) ↔ ¬IsAddress a) ∧
    (∀ host p, (Text.ofNat p).length ≤ Text.maxDigits →
      ListenAddress.parse ('[' :: host ++ ']' :: ':' :: Text.ofNat p) = .ok ⟨hostOrAny host, p⟩ ∧
      (¬Bracketed host → ListenAddress.parse (host ++ ':' :: Text.ofNat p) = .ok ⟨hostOrAny host, p⟩)) ∧
    ∀ arguments s level a wakeups, CommandLine.parse arguments = .ok s → s.log = some level → s.listen = some a →
      ((∃ x, run arguments wakeups = .ok x ∧ x.Refused) ↔ ¬IsAddress a) ∧
      ∀ address sysfs configfs, ListenAddress.parse a = .ok address → s.sysfs = some sysfs →
        s.configfs = some configfs → ∃ x, run arguments wakeups = .ok x ∧ x.Served ⟨sysfs, configfs⟩ address := by
  refine ⟨fun _ => exists_parse_iff, fun _ => exists_error_iff, ?_, ?_⟩
  · intro host p short
    exact ⟨parse_bracketed host short, fun bare => parse_bare bare short⟩
  · intro arguments s level a wakeups parsed log listen
    rw [run_of_parse parsed]
    refine ⟨⟨?_, ?_⟩, ?_⟩
    · rintro ⟨x, h, refused⟩ good
      obtain ⟨address, good⟩ := exists_parse_iff.2 good
      exact not_refused log listen wakeups good h refused
    · intro bad
      obtain ⟨f, bad⟩ := exists_error_iff.2 bad
      exact serve_refused log listen wakeups bad
    · intro address sysfs configfs good hs hc
      exact serve_served log listen wakeups good hs hc

/-- The usual mount points are served at a bracketed host. -/
theorem loopback_decides :
    ∃ x, run ["--web.listen-address=[::1]:9415".toList] 3 = .ok x ∧ x.Served Roots.standard ⟨"::1".toList, 9415⟩ :=
  (address_decides.2.2.2 ["--web.listen-address=[::1]:9415".toList] ⟨_, _, _, _⟩ _ _ 3 rfl rfl rfl).2 _ _ _
    ((address_decides.2.2.1 "::1".toList 9415 (by decide)).1) rfl rfl

/-- An option that is given the mark `--` is left without a value. Such arguments are in order, but the run neither
    refuses the address nor serves anything. -/
theorem mark_decides_nothing :
    (∃ s, CommandLine.parse ["--web.listen-address=--".toList] = .ok s) ∧
      ¬∃ x, run ["--web.listen-address=--".toList] 0 = .ok x :=
  ⟨⟨_, rfl⟩, fun ⟨_, h⟩ => nomatch h⟩

end CommandLine
end LunMetrics
