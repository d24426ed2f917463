import LunMetrics.Text.Printable

/- A text in quotes, as messages show it. Single quotes enclose it, double quotes if it holds a single one
   and no double one; the enclosing quote, the backslash and the unprintable characters are escaped. -/
namespace LunMetrics.Text

/-- The lower-case hexadecimal digits of `n`, padded with zeros to `width`. -/
def hex (width n : Nat) : Text :=
  let ds := Nat.toDigits 16 n
  List.replicate (width - ds.length) '0' ++ ds

/-- The escape of an unprintable character, of the least of three widths that holds it. -/
def escapeCode (c : Char) : Text :=
  if c.toNat < 0x100 then '\\' :: 'x' :: hex 2 c.toNat
  else if c.toNat < 0x10000 then '\\' :: 'u' :: hex 4 c.toNat
  else '\\' :: 'U' :: hex 8 c.toNat

/-- One character between the quotes `q`. -/
def quoteChar (q c : Char) : Text :=
  if c = q || c = '\\' then ['\\', c]
  else if c = '\n' then ['\\', 'n']
  else if c = '\r' then ['\\', 'r']
  else if c = '\t' then ['\\', 't']
  else if isPrintable c then [c]
  else escapeCode c

def quoteFor (t : Text) : Char := if t.contains '\x27' && !t.contains '"' then '"' else '\x27'

def quoted (t : Text) : Text :=
  let q := quoteFor t
  q :: t.flatMap (quoteChar q) ++ [q]

/-- Several texts in quotes, in parentheses. -/
def quotedAll (ts : List Text) : Text :=
  match ts with
  | [t] => '(' :: quoted t ++ [',', ')']
  | _ => '(' :: [',', ' '].intercalate (ts.map quoted) ++ [')']

end LunMetrics.Text
