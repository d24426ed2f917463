import LunMetrics.Sysfs

/- The address to listen on: a host, which may be left out or stand in brackets, and a port after the last
   colon. -/
namespace LunMetrics

structure ListenAddress where
  host : Text
  port : Nat
  deriving DecidableEq, Repr

inductive AddressFault
  | malformed (address : Text)
  | port (fault : Text.NumeralFault)
  deriving DecidableEq, Repr

def AddressFault.message : AddressFault → String
  | .malformed a => s!"Invalid listen address: {str (Text.quoted a)}"
  | .port f => f.message

namespace ListenAddress

/-- The host that stands for all addresses of the machine. -/
def anyHost : Text := "0.0.0.0".toList

def unbracket (host : Text) : Text :=
  if host.head? = some '[' && host.getLast? = some ']' then host.tail.dropLast else host

def parse (address : Text) : Except AddressFault ListenAddress :=
  match Text.cutLast? ':' address with
  | none => .error (.malformed address)
  | some (host, port) =>
    if Text.areDigits port then
      let bare := unbracket host
      ((Text.natural port).mapError .port).map fun n => ⟨if bare = [] then anyHost else bare, n⟩
    else .error (.malformed address)

end ListenAddress
end LunMetrics
