import LunMetrics.Text.Basic

/- Severities of log events, the names and numbers by which they are chosen (`Level.threshold`), and the
   settings of the log that go by a name (`LogSetting.ofName`). -/
namespace LunMetrics

inductive Level
  | debug
  | info
  | warning
  | error
  deriving DecidableEq, Repr

namespace Level

def number : Level → Nat
  | .debug => 10
  | .info => 20
  | .warning => 30
  | .error => 40

def name : Level → String
  | .debug => "DEBUG"
  | .info => "INFO"
  | .warning => "WARNING"
  | .error => "ERROR"

/-- The number of a severity by its name in capitals. -/
def numbers : List (Text × Nat) :=
  [("NOTSET".toList, 0), ("DEBUG".toList, 10), ("INFO".toList, 20), ("WARN".toList, 30), ("WARNING".toList, 30),
   ("ERROR".toList, 40), ("CRITICAL".toList, 50), ("FATAL".toList, 50)]

/-- The capital of a letter, as far as it is one of A to Z: two letters outside ASCII have such a capital
    too, the dotless i and the long s. -/
def capital (c : Char) : Char :=
  if c = 'ı' then 'I' else if c = 'ſ' then 'S' else c.toUpper

/-- The number that a name chooses; an unknown one chooses warnings. -/
def threshold (name : Text) : Nat := (numbers.lookup (name.map capital)).getD Level.warning.number

end Level

/-! Settings of the log. -/

/-- What the log can be set to by a name: the least severity that is logged, or a layout of its lines. -/
inductive LogSetting
  | threshold (number : Nat)
  | layout (text : String)
  deriving DecidableEq, Repr

namespace LogSetting

def plainName : Text := "BASIC_FORMAT".toList

/-- The plain layout of a line: severity, source and message. -/
def plainLayout : String := "%(levelname)s:%(name)s:%(message)s"

/-- What a name chooses: the plain layout by its name, otherwise a severity. -/
def ofName (name : Text) : LogSetting :=
  if name.map Level.capital = plainName then .layout plainLayout else .threshold (Level.threshold name)

end LogSetting
end LunMetrics
