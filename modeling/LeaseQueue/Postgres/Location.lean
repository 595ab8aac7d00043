import LeaseQueue.Net.Network
import LeaseQueue.Net.Url
import LeaseQueue.Store.Error
import LeaseQueue.Text.Quoted
/-! Where a database server listens: the host and the port of its URL, or of the options in its
query. -/
namespace LeaseQueue.Postgres

structure Location where
  host : String
  port : Nat

def Location.default : Location := ⟨"localhost", 5432⟩

/-- Reads a whole number up to `limit`. -/
def readWord (limit : Nat) (text : String) : Except DatabaseError Nat :=
  let digits := match text.toList with | '+' :: rest => rest | other => other
  if text = "" then .error (.misconfigured "cannot parse integer from empty string")
  else if digits = [] ∨ !digits.all Char.isDigit then
    .error (.misconfigured "invalid digit found in string")
  else
    let value := (SocketAddress.digitRun 10 0 0 digits).1
    if limit < value then .error (.misconfigured "number too large to fit in target type")
    else .ok value

/-- The ways in which a connection may be secured. -/
def securityModes : List String :=
  ["disable", "allow", "prefer", "require", "verify-ca", "verify-full"]

/-- Applies one option. Most of them do not tell where the server listens. -/
def Location.applyOption (l : Location) (name value : String) : Except DatabaseError Location :=
  match name with
  | "host" => .ok { l with host := value }
  | "hostaddr" =>
    let withPort := [value ++ ":0", "[" ++ value ++ "]:0"]
    if withPort.any fun text => (SocketAddress.ofText? text).isSome then .ok { l with host := value }
    else .error (.misconfigured "invalid IP address syntax")
  | "port" => (readWord 65535 value).map fun port => { l with port }
  | "statement-cache-capacity" => (readWord (Nat.pow 2 64 - 1) value).map fun _ => l
  | "sslmode" | "ssl-mode" =>
    if securityModes.contains (String.ofList (value.toList.map Char.toLower)) then .ok l
    else
      .error (.misconfigured (DatabaseError.message (.misconfigured
        ("unknown value " ++ Quoted.encode value ++ " for `ssl_mode`"))))
  | _ => .ok l

def Location.ofUrl (text : String) : Except DatabaseError Location := do
  match Url.ofText text with
  | .error e => throw (.misconfigured e.message)
  | .ok url =>
    let port := (url.authority.bind (·.port)).getD Location.default.port
    let host := url.host?.getD Location.default.host
    (Percent.queryPairs (url.query.getD "")).foldlM (fun l p => l.applyOption p.1 p.2) ⟨host, port⟩

/-- Connects to the server of a URL. -/
def connect (network : Network) (url : String) : Except StoreError Unit :=
  match Location.ofUrl url with
  | .error cause => .error (.connectionFailed cause.message)
  | .ok location =>
    match network.failure? location.host location.port with
    | some reason => .error (.connectionFailed (DatabaseError.unreachable reason).message)
    | none => .ok ()

end LeaseQueue.Postgres
