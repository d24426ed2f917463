import LunMetrics.Cycle.Run
import LunMetrics.Sink.Families

/- What a scrape sees: the families of all descriptors, with the samples of one cycle. The families are
   there whether they have samples or not. -/
namespace LunMetrics.Scrape

def describe (x : Exporter) : List Family := (Families.ofNamespace x.namespacePart).toList

/-- The families with the samples of one cycle. -/
def collect (fs : Sysfs) (x : Exporter) : Outcome Families CycleFault (List Family) :=
  let o := Cycle.run (Families.station fs) x (Families.ofNamespace x.namespacePart)
  match o.result with
  | .error f => ⟨o.state, .collecting :: o.events, .error f⟩
  | .ok n => ⟨o.state, .collecting :: o.events ++ [.collected n], .ok o.state.toList⟩

end LunMetrics.Scrape
