import LunMetrics.Metric.Family
import LunMetrics.Number.Shortest

/- The text of a scrape. A family has a line of help, a line of type, and a line per sample. This file

   1. writes metric names (`written`), in which only ASCII letters, digits, underscores and colons stand;
   2. writes labels, sorted by name, with values escaped so that a line ends where the sample does (`labels`);
   3. writes values (`value`) and puts the lines together (`text`). -/
namespace LunMetrics.Exposition

/-! Metric names. -/

/-- Whether a character may stand at the start of a written name. -/
def mayStart (c : Char) : Bool := c.isAlpha || c = '_' || c = ':'

/-- Whether a character may stand further on in a written name. -/
def mayFollow (c : Char) : Bool := mayStart c || c.isDigit

/-- A name with an underscore for every character that may not stand in its place. -/
def written : Text → Text
  | [] => []
  | c :: cs => (if mayStart c then c else '_') :: cs.map fun d => if mayFollow d then d else '_'

theorem written_eq_self {c : Char} {cs : Text} (hc : mayStart c) (hcs : ∀ d ∈ cs, mayFollow d) :
    written (c :: cs) = c :: cs := by
  have h : cs.map (fun d => if mayFollow d then d else '_') = cs.map id :=
    List.map_congr_left fun d hd => by simp [hcs d hd]
  simp [written, hc, h]

/-! Label values. -/

/-- One character of a label value: backslash, quote and line end are written as two characters. -/
def escapeChar (c : Char) : Text :=
  if c = '\\' then ['\\', '\\']
  else if c = '"' then ['\\', '"']
  else if c = '\n' then ['\\', 'n']
  else [c]

def escape (t : Text) : Text := t.flatMap escapeChar

def label (l : Text × Text) : Text := l.1 ++ '=' :: '"' :: escape l.2 ++ ['"']

def labels (ls : List (Text × Text)) : Text :=
  if ls = [] then []
  else '\x7b' :: [','].intercalate ((sortBy (fun a b => Text.le a.1 b.1) ls).map label) ++ ['\x7d']

/-! Values. -/

/-- An exponent of ten, with two digits at least. -/
def exponent (e : Nat) : Text :=
  let ds := Text.ofNat e
  'e' :: '+' :: (if ds.length < 2 then '0' :: ds else ds)

/-- Digits with a point after the first, if there are more. -/
def pointed : Text → Text
  | [] => []
  | [d] => [d]
  | d :: ds => d :: '.' :: ds

/-- A positive double with its shortest digits: in positional notation with one place after the point as
    long as at most `places` digits stand before the point, otherwise with an exponent. -/
def decimal (places n : Nat) : Text :=
  let (d, e) := Binary64.shortest n
  let digits := Text.ofNat d
  let before := digits.length + e
  if before ≤ places then digits ++ List.replicate e '0' ++ ['.', '0']
  else pointed (digits.reverse.dropWhile (· = '0')).reverse ++ exponent (before - 1)

/-- The value of a sample. Exponents begin earlier above zero than below it. -/
def value (z : Int) : Text :=
  if z = 0 then ['0', '.', '0']
  else if z < 0 then '-' :: decimal 16 z.natAbs
  else decimal 6 z.natAbs

/-! Lines. -/

def sampleLine (s : FamilySample) : Text := written s.name ++ labels s.labels ++ ' ' :: value s.value ++ ['\n']

/-- The two lines at the head of a family. -/
def header (f : Family) : Text :=
  let name := written f.sampleName
  "# HELP ".toList ++ name ++ ' ' :: f.documentation ++ "\n# TYPE ".toList ++ name ++
    ' ' :: f.kind.name.toList ++ ['\n']

def family (f : Family) : Text := header f ++ f.samples.flatMap sampleLine

def text (fs : List Family) : Text := fs.flatMap family

end LunMetrics.Exposition
