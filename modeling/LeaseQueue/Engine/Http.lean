import LeaseQueue.Engine.Basic
import LeaseQueue.Net.Network
import LeaseQueue.Net.Url
/-! A diff engine that asks a service over HTTP: one request per unit of work, whose answer counts by
its status alone. -/
namespace LeaseQueue.Http

/-- A request of a service, which posts JSON. -/
structure Request where
  url : Url
  body : String

/-- The part of the URL that a service sees. -/
def Request.target (r : Request) : String :=
  r.url.path ++ (match r.url.query with | some query => "?" ++ query | none => "")

/-- What comes back to a request. -/
inductive Reply where
  /-- The connection ends without an answer, or none comes in time. -/
  | silence
  /-- An answer, whose body may break off. -/
  | answer (status : Nat) (body : List UInt8) (complete : Bool)

/-- What a call is asked with: the parameters of the grouping and the extra digests. -/
def body (call : DiffCall) : String :=
  "\x7b\"grouping\":" ++ call.params.encode ++ ",\"extra_digests\":" ++
    Digest.encodeList call.extra ++ "\x7d"

/-- The address that calculations are asked from, below the base address. -/
def serviceAddress (base : String) : String :=
  String.ofList (base.toList.reverse.dropWhile (· = '/')).reverse ++ "/calculate"

def requestFailed {α : Type} (reason : String) : Except DiffError α :=
  .error (.requestFailed reason)

/-- Why the request for an address cannot even be built, with the URL as far as it was read. -/
def request (base : String) (call : DiffCall) : Except DiffError Request :=
  match Url.ofText (serviceAddress base) with
  | .error _ => requestFailed "builder error"
  | .ok url =>
    let refused := fun (url : Url) => requestFailed ("builder error for url (" ++ url.written ++ ")")
    if url.host?.isNone then refused url
    else if ["http", "https"].contains url.scheme then
      .ok ⟨url.withoutCredentials, body call⟩
    else refused url.withoutCredentials

/-- The text of a body: malformed bytes are replaced and a byte order mark is dropped. -/
def bodyText (body : List UInt8) (complete : Bool) : String :=
  if complete then Utf8.decodeLossy (Utf8.dropMark body) else "Failed to read error response"

/-- What an answer means for the unit of work. -/
def verdict (url : Url) : Reply → Except DiffError Unit
  | .silence => requestFailed ("error sending request for url (" ++ url.written ++ ")")
  | .answer status body complete =>
    if 200 ≤ status ∧ status < 300 then .ok ()
    else .error (.service status (bodyText body complete))

/-- The port that a URL means. -/
def port (url : Url) : Nat :=
  ((url.authority.bind (·.port)).orElse fun _ => Url.specialPorts.lookup url.scheme).getD 0

/-- Calls a service, with the requests that reach it. -/
def calculate (network : Network) (serve : Request → Reply) (base : String) (call : DiffCall) :
    Except DiffError Unit × List Request :=
  match request base call with
  | .error e => (.error e, [])
  | .ok r =>
    match network.failure? (r.url.host?.getD "") (port r.url) with
    | some _ => (verdict r.url .silence, [])
    | none => (verdict r.url (serve r), [r])

end LeaseQueue.Http
