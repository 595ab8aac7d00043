/-! The network around a worker, as far as it shows: which hosts a connection can be made to. -/
namespace LeaseQueue

/-- Tells of a host and a port why no connection to them can be made, if none can. -/
structure Network where
  failure? : String → Nat → Option String

namespace Network

/-- A network without any route. -/
def unreachable : Network := ⟨fun _ _ => some "Network is unreachable (os error 101)"⟩

end Network

end LeaseQueue
