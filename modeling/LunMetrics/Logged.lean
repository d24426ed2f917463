import LunMetrics.Event

/- Values that come with the events noted on the way to them. -/
namespace LunMetrics

/-- A value and what was noted on the way to it, in order. -/
structure Logged (α : Type) where
  events : List Event
  value : α
  deriving DecidableEq, Repr

namespace Logged

variable {α β : Type}

instance : Monad Logged where
  pure a := ⟨[], a⟩
  bind m f := ⟨m.events ++ (f m.value).events, (f m.value).value⟩

def note (e : Event) : Logged Unit := ⟨[e], ()⟩

@[simp] theorem events_pure (a : α) : (pure a : Logged α).events = [] := rfl
@[simp] theorem value_pure (a : α) : (pure a : Logged α).value = a := rfl
@[simp] theorem events_note (e : Event) : (note e).events = [e] := rfl
@[simp] theorem value_note (e : Event) : (note e).value = () := rfl

@[simp] theorem events_bind (m : Logged α) (f : α → Logged β) :
    (m >>= f).events = m.events ++ (f m.value).events := rfl

@[simp] theorem value_bind (m : Logged α) (f : α → Logged β) : (m >>= f).value = (f m.value).value := rfl

end Logged
end LunMetrics
