import LunMetrics.Level
import LunMetrics.Text.Digits
import LunMetrics.Text.Quoted

/- The command line. This file

   1. lists the options and their names (`Flag`), of which a long one may be shortened as long as one option
      alone has that beginning;
   2. sorts every argument into plain values, options and unknown options before any is acted on (`classify`);
   3. acts on them from left to right (`consume`): help ends everything, a faulty option ends it with a
      complaint, and what nobody asked for is complained about at the end;
   4. writes the help and the complaints (`Ending`). -/
namespace LunMetrics.CommandLine

/-! Options. -/

inductive Flag
  | help
  | sysfs
  | configfs
  | listen
  | log
  deriving DecidableEq, Repr

def names : List (Text × Flag) :=
  [("-h".toList, .help), ("--help".toList, .help), ("--path.sysfs".toList, .sysfs),
   ("--path.configfs".toList, .configfs), ("--web.listen-address".toList, .listen), ("-log".toList, .log)]

/-- An option in complaints: all its names. -/
def Flag.label (f : Flag) : Text := ['/'].intercalate ((names.filter (·.2 = f)).map (·.1))

def choices : List Text := [Level.debug, .info, .warning, .error].map (·.name.toList)

inductive UsageFault
  | ambiguous (argument : Text) (candidates : List Text)
  | expectedValue (flag : Flag)
  | ignoredValue (value : Text)
  | invalidChoice (value : Text)
  | unrecognized (arguments : List Text)
  deriving DecidableEq, Repr

def commas (ts : List Text) : Text := ", ".toList.intercalate ts

def spaces (ts : List Text) : Text := " ".toList.intercalate ts

def UsageFault.message : UsageFault → String
  | .ambiguous a cs => s!"ambiguous option: {str a} could match {str (commas cs)}"
  | .expectedValue f => s!"argument {str f.label}: expected one argument"
  | .ignoredValue v => s!"argument {str Flag.help.label}: ignored explicit argument {str (Text.quoted v)}"
  | .invalidChoice v => s!"argument {str Flag.log.label}: invalid choice: {str (Text.quoted v)} (choose from {str (commas (choices.map Text.quoted))})"
  | .unrecognized as => s!"unrecognized arguments: {str (spaces as)}"

/-! Sorting arguments. -/

/-- What an argument is: a value, an option by one of its names with the value attached to it, or neither. -/
inductive Word
  | value (text : Text)
  | option (flag : Flag) (name : Text) (attached : Option Text)
  | other (text : Text)
  deriving DecidableEq, Repr

def cutValue (a : Text) : Text × Option Text :=
  let name := a.takeWhile (· ≠ '=')
  (name, (a.drop name.length).tail?)

/-- The options that an argument may stand for though it is not the name of one. A long name is shortened;
    a short one is shortened as a whole, or has a one-letter option with a value right behind it. -/
def candidates (a : Text) : List (Flag × Text × Option Text) :=
  if ['-', '-'].isPrefixOf a then
    let (start, attached) := cutValue a
    (names.filter fun n => start.isPrefixOf n.1).map fun n => (n.2, n.1, attached)
  else
    names.filterMap fun n =>
      if n.1 = a.take 2 then some (n.2, n.1, some (a.drop 2))
      else if a.isPrefixOf n.1 then some (n.2, n.1, none)
      else none

/-- A negative number: digits with an optional point before the last of them. One line end may follow. -/
def isNegativeNumber (a : Text) : Bool :=
  let a := if a.getLast? = some '\n' then a.dropLast else a
  let isDecimal c := (Text.decimal? c).isSome
  match a with
  | '-' :: t =>
    let fraction := (t.dropWhile isDecimal)
    match fraction with
    | [] => t ≠ []
    | c :: ds => c = '.' && ds ≠ [] && ds.all isDecimal
  | _ => false

/-- What one argument is. -/
def classifyOne (a : Text) : Except UsageFault Word :=
  if a.head? ≠ some '-' then .ok (.value a)
  else
    match names.lookup a with
    | some f => .ok (.option f a none)
    | none =>
      if a.length = 1 then .ok (.value a)
      else
        let (start, attached) := cutValue a
        match attached, names.lookup start with
        | some v, some f => .ok (.option f start (some v))
        | _, _ =>
          match candidates a with
          | [(f, name, v)] => .ok (.option f name v)
          | [] => .ok (if isNegativeNumber a || a.contains ' ' then .value a else .other a)
          | cs => .error (.ambiguous a (cs.map (·.2.1)))

/-- The mark after which no argument is an option. -/
def endOfOptions : Text := "--".toList

def classify : List Text → Except UsageFault (List Word)
  | [] => .ok []
  | a :: as =>
    if a = endOfOptions then .ok (.other a :: as.map .value)
    else do
      let w ← classifyOne a
      let ws ← classify as
      return w :: ws

/-! Acting on them. -/

/-- The chosen values. An option whose attached value is the mark `--` loses it and is left without one. -/
structure Settings where
  sysfs : Option Text
  configfs : Option Text
  listen : Option Text
  log : Option Text
  deriving DecidableEq, Repr

def Settings.standard : Settings :=
  ⟨some "/sys".toList, some "/sys/kernel/config".toList, some ":9415".toList, some "WARNING".toList⟩

/-- Why no settings come of a command line. -/
inductive Ending
  | help
  | refused (fault : UsageFault)
  deriving DecidableEq, Repr

/-- Help asked for by `name`, with a value attached to it: further letters `h` ask for it again, anything
    else is too much. -/
def askHelp (name : Text) : Option Text → Ending
  | none => .help
  | some v =>
    let rest := v.dropWhile (· = 'h')
    if name.length ≠ 2 || v = [] then .refused (.ignoredValue v)
    else if rest = [] then .help
    else .refused (.ignoredValue rest)

def Settings.set (s : Settings) (f : Flag) (value : Text) : Except Ending Settings :=
  let v := if value = endOfOptions then none else some value
  match f with
  | .help => .error .help
  | .sysfs => .ok { s with sysfs := v }
  | .configfs => .ok { s with configfs := v }
  | .listen => .ok { s with listen := v }
  | .log =>
    if v.all (choices.contains ·) then .ok { s with log := v } else .error (.refused (.invalidChoice value))

/-- The settings after the given words, and the arguments that nobody asked for. -/
def consume (s : Settings) : List Word → Except Ending (Settings × List Text)
  | [] => .ok (s, [])
  | .value t :: ws | .other t :: ws => (consume s ws).map fun r => (r.1, t :: r.2)
  | .option .help name v :: _ => .error (askHelp name v)
  | .option f _ (some v) :: ws => do consume (← s.set f v) ws
  | .option f _ none :: .value v :: ws => do consume (← s.set f v) ws
  | .option f _ none :: _ => .error (.refused (.expectedValue f))

def parse (arguments : List Text) : Except Ending Settings := do
  let words ← (classify arguments).mapError .refused
  let (settings, extras) ← consume .standard words
  if extras = [] then return settings else throw (.refused (.unrecognized extras))

/-! What is said. -/

def program : String := "lio-exporter"

def usage : String :=
  "usage: lio-exporter [-h] [--path.sysfs SYSFS_PATH]\n" ++
  "                    [--path.configfs CONFIGFS_PATH]\n" ++
  "                    [--web.listen-address LISTEN_ADDRESS]\n" ++
  "                    [-log \x7bDEBUG,INFO,WARNING,ERROR\x7d]\n"

def helpText : String :=
  usage ++
  "\nExport LIO iSCSI backstore statistics for Prometheus\n" ++
  "\noptions:\n" ++
  "  -h, --help            show this help message and exit\n" ++
  "  --path.sysfs SYSFS_PATH\n" ++
  "                        sysfs mountpoint (default: /sys)\n" ++
  "  --path.configfs CONFIGFS_PATH\n" ++
  "                        configfs mountpoint (default: /sys/kernel/config)\n" ++
  "  --web.listen-address LISTEN_ADDRESS\n" ++
  "                        Address to expose metrics on (default: :9415)\n" ++
  "  -log \x7bDEBUG,INFO,WARNING,ERROR\x7d\n" ++
  "                        Log level (default: WARNING)\n"

namespace Ending

def exitCode : Ending → Nat
  | .help => 0
  | .refused _ => 2

def output : Ending → String
  | .help => helpText
  | .refused _ => ""

def complaint : Ending → String
  | .help => ""
  | .refused f => s!"{usage}{program}: error: {f.message}\n"

end Ending
end LunMetrics.CommandLine
