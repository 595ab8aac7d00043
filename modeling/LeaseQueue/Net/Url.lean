import LeaseQueue.Net.Percent
import LeaseQueue.Net.Punycode
import LeaseQueue.Net.SocketAddress
import LeaseQueue.Text.Blank
/-! Absolute URLs: how they are read leniently and written in one canonical form. Schemes of the web
are special: their slashes and hosts are normalized further than those of others. -/
namespace LeaseQueue

/-- What follows the two slashes: credentials, a host and a port. -/
structure Authority where
  username : String
  password : String
  /-- The host as it is written. It may be empty where the scheme is not special. -/
  host : String
  port : Option Nat

structure Url where
  scheme : String
  authority : Option Authority
  path : String
  query : Option String
  fragment : Option String

/-- Why a text is no URL. -/
inductive UrlError where
  | relative
  | emptyHost
  | invalidPort
  | invalidV4
  | invalidV6
  | invalidHost
deriving DecidableEq

def UrlError.message : UrlError → String
  | .relative => "relative URL without a base"
  | .emptyHost => "empty host"
  | .invalidPort => "invalid port number"
  | .invalidV4 => "invalid IPv4 address"
  | .invalidV6 => "invalid IPv6 address"
  | .invalidHost => "invalid domain character"

namespace Url

/-- The special schemes that have a host, with their usual ports. -/
def specialPorts : List (String × Nat) :=
  [("http", 80), ("https", 443), ("ws", 80), ("wss", 443), ("ftp", 21)]

def isSpecial (scheme : String) : Bool := (specialPorts.lookup scheme).isSome || scheme = "file"

/-- Printable characters within ASCII but for the given ones. -/
def plainBut (excluded : String) (c : Char) : Bool :=
  0x20 ≤ c.toNat && c.toNat < 0x7F && !excluded.toList.contains c

/-- What stays as it is in each part of a URL. -/
def plainInPath : Char → Bool := plainBut " \"<>`#?\x7b\x7d"

def plainInCredentials : Char → Bool := plainBut " \"<>`#?\x7b\x7d/:;=@[\\]^|"

def plainInQuery (special : Bool) : Char → Bool :=
  plainBut (if special then " \"#<>'" else " \"#<>")

def plainInFragment : Char → Bool := plainBut " \"<>`"

def plainInOpaquePath : Char → Bool := plainBut ""

/-- Whether a character ends the authority or a segment of a path. -/
def isSlash (special : Bool) (c : Char) : Bool := c = '/' || (special && c = '\\')

/-! Hosts -/

def forbiddenInHost : String := "\x00\t\n\r #/:<>?@[\\]^|"

def isForbiddenInDomain (c : Char) : Bool :=
  forbiddenInHost.toList.contains c || c = '%' || c.toNat < 0x20 || c.toNat = 0x7F

/-- A part of a dotted address: decimal, octal after a zero or hexadecimal after `0x`. -/
def readV4Part (part : List Char) : Option Nat :=
  let whole := fun (radix : Nat) (digits : List Char) =>
    let (value, _, rest) := SocketAddress.digitRun radix 0 0 digits
    if rest = [] then some value else none
  match part with
  | '0' :: 'x' :: digits => whole 16 digits
  | '0' :: 'X' :: digits => whole 16 digits
  | '0' :: digits => whole 8 digits
  | [] => none
  | digits => whole 10 digits

/-- The parts of a dotted name. A dot at the end adds none. -/
def dottedParts (domain : List Char) : List (List Char) :=
  let parts := domain.splitOn '.'
  if parts.getLast? = some [] ∧ 1 < parts.length then parts.dropLast else parts

/-- Whether the last part of a name is a number, so the name must be an address. -/
def endsInNumber (domain : List Char) : Bool :=
  match (dottedParts domain).getLast? with
  | none => false
  | some [] => false
  | some last => last.all Char.isDigit || (last.head? = some '0' && (readV4Part last).isSome)

/-- Up to four numbers, of which the last fills the bytes that are left. -/
def readV4 (domain : List Char) : Except UrlError (List Nat) :=
  match (dottedParts domain).mapM readV4Part with
  | none => .error .invalidV4
  | some numbers =>
    let leading := numbers.dropLast
    let last := numbers.getLastD 0
    if 4 < numbers.length ∨ leading.any (255 < ·) ∨ Nat.pow 256 (4 - leading.length) ≤ last then
      .error .invalidV4
    else
      .ok (leading ++ (List.range (4 - leading.length)).map fun i =>
        last / Nat.pow 256 (3 - leading.length - i) % 256)

def readV6 (host : List Char) : Except UrlError String :=
  match SocketAddress.readV6 (host.drop 1) with
  | some (groups, [']']) => .ok ("[" ++ SocketAddress.writtenGroups groups ++ "]")
  | _ => .error .invalidV6

/-- The host of a special scheme: an address, or a domain name in small letters within ASCII. -/
def readDomain (host : List Char) : Except UrlError String :=
  if host.head? = some '[' then readV6 host
  else
    let decoded := (Utf8.decodeLossy (Percent.decode (String.ofList host))).toList.map Char.toLower
    let labels := (decoded.splitOn '.').map Punycode.encodeLabel
    let domain := (List.intersperse ['.'] labels).flatten
    if domain = [] then .error .emptyHost
    else if domain.any isForbiddenInDomain then .error .invalidHost
    else if endsInNumber domain then (readV4 domain).map SocketAddress.writtenV4
    else .ok (String.ofList domain)

/-- The host of another scheme is kept apart from its encoding. -/
def readOpaqueHost (host : List Char) : Except UrlError String :=
  if host.head? = some '[' then readV6 host
  else if host.any fun c => forbiddenInHost.toList.contains c then .error .invalidHost
  else .ok (Percent.encode (plainBut "") host)

/-- The end of the host in a text: the first colon outside of brackets. -/
def hostLength : Bool → List Char → Nat
  | _, [] => 0
  | inside, c :: rest =>
    if c = ':' && !inside then 0
    else hostLength (if c = '[' then true else if c = ']' then false else inside) rest + 1

/-- The port after a colon. The usual one of the scheme is left out. -/
def readPort (scheme : String) (text : List Char) : Except UrlError (Option Nat) :=
  let (value, count, rest) := SocketAddress.digitRun 10 0 0 text
  if rest ≠ [] ∨ 65535 < value then .error .invalidPort
  else if count = 0 ∨ specialPorts.lookup scheme = some value then .ok none
  else .ok (some value)

/-- Splits credentials, up to the last at sign, from the host. -/
def splitCredentials (text : List Char) : String × String × List Char :=
  let parts := text.splitOn '@'
  let host := parts.getLastD []
  let credentials := (List.intersperse ['@'] parts.dropLast).flatten
  let (username, password) := Percent.cut ':' credentials
  (Percent.encode plainInCredentials username, Percent.encode plainInCredentials password, host)

def readAuthority (scheme : String) (text : List Char) : Except UrlError Authority := do
  let (username, password, rest) := splitCredentials text
  let length := hostLength false rest
  let hostText := rest.take length
  let portText := rest.drop length
  if hostText = [] ∧ (isSpecial scheme ∨ portText ≠ []) then throw .emptyHost
  let host ← if isSpecial scheme then readDomain hostText else readOpaqueHost hostText
  let port ← readPort scheme (portText.drop 1)
  return { username, password, host, port }

/-! Paths -/

/-- Splits a path into its segments. -/
def segments (special : Bool) (text : List Char) : List (List Char) :=
  (text.map fun c => if isSlash special c then '/' else c).splitOn '/'

def isDot (segment : List Char) : Bool :=
  [".", "%2e"].contains (String.ofList (segment.map Char.toLower))

def isTwoDots (segment : List Char) : Bool :=
  ["..", ".%2e", "%2e.", "%2e%2e"].contains (String.ofList (segment.map Char.toLower))

/-- Resolves the dots in a list of segments. The first list holds the segments before them, the
last of them first. -/
def resolve : List String → List (List Char) → List String
  | before, [] => before.reverse
  | before, segment :: rest =>
    let ends := rest = []
    if isTwoDots segment then resolve (if ends then "" :: before.drop 1 else before.drop 1) rest
    else if isDot segment then resolve (if ends then "" :: before else before) rest
    else resolve (Percent.encode plainInPath segment :: before) rest

/-- A path with its leading slash. The text begins after that slash. -/
def readPath (special : Bool) (text : List Char) : String :=
  "/" ++ String.intercalate "/" (resolve [] (segments special text))

/-! Whole URLs -/

/-- Drops what may surround a URL, and the line breaks and tabs within. -/
def clean (text : String) : List Char :=
  (trimChars (fun c => c.toNat ≤ 0x20) text.toList).filter fun c =>
    c ≠ '\t' && c ≠ '\n' && c ≠ '\r'

/-- The scheme in small letters, and what follows its colon. -/
def readScheme (text : List Char) : Option (String × List Char) :=
  let name := text.takeWhile fun c => c.isAlphanum || c = '+' || c = '-' || c = '.'
  match text.drop name.length with
  | ':' :: rest =>
    if (name.head?.any Char.isAlpha) then some (String.ofList (name.map Char.toLower), rest) else none
  | _ => none

/-- Splits off the fragment and then the query. -/
def splitTail (text : List Char) : List Char × Option (List Char) × Option (List Char) :=
  let (front, fragment) :=
    if text.contains '#' then ((Percent.cut '#' text).1, some (Percent.cut '#' text).2)
    else (text, none)
  let (front, query) :=
    if front.contains '?' then ((Percent.cut '?' front).1, some (Percent.cut '?' front).2)
    else (front, none)
  (front, query, fragment)

/-- The host of a file is mostly empty, and the local one is left out. -/
def readFile (front : List Char) : Except UrlError (Option Authority × String) := do
  if (front.take 2).all (isSlash true) ∧ 2 ≤ front.length then
    let named := (front.drop 2).takeWhile fun c => !isSlash true c
    let host ← if named = [] then pure "" else readDomain named
    let path := readPath true (front.drop (named.length + 3))
    return (some ⟨"", "", if host = "localhost" then "" else host, none⟩, path)
  else return (some ⟨"", "", "", none⟩, readPath true (front.dropWhile (isSlash true)))

/-- Authority and path of what stands between the scheme and the query. -/
def readFront (scheme : String) (front : List Char) : Except UrlError (Option Authority × String) :=
  let special := isSpecial scheme
  let withAuthority := fun (text : List Char) => do
    let length := (text.takeWhile fun c => !isSlash special c).length
    let authority ← readAuthority scheme (text.take length)
    let path :=
      match text.drop length with
      | [] => if special then "/" else ""
      | _ :: rest => readPath special rest
    return (some authority, path)
  if scheme = "file" then readFile front
  else if special then withAuthority (front.dropWhile (isSlash true))
  else
    match front with
    | '/' :: '/' :: rest => withAuthority rest
    | '/' :: rest => .ok (none, readPath false rest)
    | path => .ok (none, Percent.encode plainInOpaquePath path)

def ofText (text : String) : Except UrlError Url := do
  match readScheme (clean text) with
  | none => throw .relative
  | some (scheme, rest) =>
    let (front, query, fragment) := splitTail rest
    let (authority, path) ← readFront scheme front
    return {
      scheme, authority, path
      query := query.map (Percent.encode (plainInQuery (isSpecial scheme)))
      fragment := fragment.map (Percent.encode plainInFragment) }

/-- The host, if there is one that is not empty. -/
def host? (url : Url) : Option String :=
  url.authority.bind fun a => if a.host = "" then none else some a.host

def withoutCredentials (url : Url) : Url :=
  { url with authority := url.authority.map fun a => { a with username := "", password := "" } }

def Authority.written (a : Authority) : String :=
  let password := if a.password = "" then "" else ":" ++ a.password
  let credentials := a.username ++ password
  let port := match a.port with | some n => ":" ++ toString n | none => ""
  (if credentials = "" then "" else credentials ++ "@") ++ a.host ++ port

def written (url : Url) : String :=
  let authority := match url.authority with | some a => "//" ++ Authority.written a | none => ""
  let tail := fun (mark : String) (part : Option String) =>
    match part with
    | some text => mark ++ text
    | none => ""
  url.scheme ++ ":" ++ authority ++ url.path ++ tail "?" url.query ++ tail "#" url.fragment

end Url

end LeaseQueue
