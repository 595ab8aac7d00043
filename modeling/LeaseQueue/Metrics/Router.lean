import LeaseQueue.Metrics.Counters
import LeaseQueue.Net.SocketAddress
/-! Serving the metrics: the address to listen on, and the answers to requests. -/
namespace LeaseQueue

/-- Why the metrics are not served. -/
inductive MetricsError where
  | invalidAddress (address : String)

def MetricsError.message : MetricsError → String
  | .invalidAddress address => "Invalid metrics address '" ++ address ++ "'"

/-- The address to listen on. A bare port, after its colon, listens on all interfaces. -/
def Metrics.listenAddress (address : String) : Except MetricsError SocketAddress :=
  let full := if address.toList.head? = some ':' then "0.0.0.0" ++ address else address
  match SocketAddress.ofText? full with
  | some result => .ok result
  | none => .error (.invalidAddress address)

/-- An answer to a request, with the headers that matter. -/
structure Response where
  status : Nat
  contentType : Option String
  allow : Option String
  body : String

namespace Metrics

/-- The path of a request target, without query and fragment. -/
def targetPath (target : String) : String :=
  String.ofList (target.toList.takeWhile fun c => c ≠ '?' && c ≠ '#')

/-- Answers a request. Only the one path is known, and it can only be read. -/
def answer (m : Metrics) (method target : String) : Response :=
  if targetPath target ≠ "/metrics" then ⟨404, none, none, ""⟩
  else if method = "GET" then ⟨200, some "text/plain; charset=utf-8", none, m.exportText⟩
  else if method = "HEAD" then ⟨200, some "text/plain; charset=utf-8", none, ""⟩
  else ⟨405, none, some "GET,HEAD", ""⟩

end Metrics

end LeaseQueue
