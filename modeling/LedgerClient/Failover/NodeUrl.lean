import LedgerClient.Failover.NodeHost
import LedgerClient.Text.Hex
/-!
# URLs of nodes

A configured node is a text until a request goes to it. Only then its URL is read, and a text that
is no URL of a web server is a fault of that one attempt.

* `NodeUrl.scheme?`     what stands before the first colon;
* `NodeUrl.authority`   what names the server, in front of the path;
* `NodeUrl.port?`       the socket number behind the host, if there is one;
* `NodeUrl.ofText`      the URL as it is shown, or its fault.

Blanks around a text and line ends inside it do not count. In URLs with a host, a backslash is a
slash, an empty path is `/`, letters of scheme and host are lower case, and nobody is shown who
stands before an at sign. Of a path nothing but blanks and characters beyond ASCII is escaped, and
dots in it are not followed.
-/

namespace LedgerClient

/-- what follows the words that every such fault begins with -/
def UrlFault.detail : UrlFault → String
  | .relative => ": relative URL without a base"
  | .emptyHost => ": empty host"
  | .badIpv6 => ": invalid IPv6 address"
  | .badIpv4 => ": invalid IPv4 address"
  | .badName => ": invalid domain character"
  | .badPort => ": invalid port number"
  | .scheme url => " for url (" ++ url ++ "): URL scheme is not allowed"

/-- a URL that requests can go to -/
structure NodeUrl where
  text : String
deriving DecidableEq

namespace NodeUrl

def isControl (c : Char) : Bool := c.toNat ≤ 0x20

def isLineEnd (c : Char) : Bool := c = '\t' || c = '\n' || c = '\r'

/-- without blanks and controls at the ends, and without line ends -/
def cleaned (cs : List Char) : List Char :=
  (((cs.dropWhile isControl).reverse.dropWhile isControl).reverse).filter (!isLineEnd ·)

/-! ## Parts -/

def isSchemeChar (c : Char) : Bool := c.isAlphanum || c = '+' || c = '-' || c = '.'

/-- the scheme in lower case, and what follows its colon -/
def scheme? (cs : List Char) : Option (List Char × List Char) :=
  let name := cs.takeWhile isSchemeChar
  match name, cs.drop name.length with
  | c :: _, ':' :: rest => if c.isAlpha then some (name.map Char.toLower, rest) else none
  | _, _ => none

/-- schemes that requests can go to -/
def webSchemes : List String := ["http", "https"]

/-- schemes whose URLs have a host, with the socket number that such a host has unless told -/
def hostedSchemes : List (String × Nat) :=
  [("http", 80), ("https", 443), ("ws", 80), ("wss", 443), ("ftp", 21)]

def isSlash (c : Char) : Bool := c = '/' || c = '\\'

def endsAuthority (c : Char) : Bool := isSlash c || c = '?' || c = '#'

/-- user, host and socket number, and the rest of the URL -/
def authority (cs : List Char) : List Char × List Char := cs.span (!endsAuthority ·)

/-- host and socket number, behind the last at sign -/
def site (authority : List Char) : List Char :=
  (Text.fields '@' authority).getLastD []

/-- everything up to the first colon outside brackets -/
def host : (inside : Bool) → List Char → List Char
  | _, [] => []
  | inside, c :: cs =>
    if c = ':' ∧ inside = false then []
    else c :: host (if c = '[' then true else if c = ']' then false else inside) cs

/-- the socket number that the digits behind the colon spell, if there are any -/
def port? (digits : List Char) : Except UrlFault (Option Nat) :=
  if digits = [] then .ok none
  else
    match (Text.numeral? 10 digits).bind (Text.bounded? 0x10000) with
    | some n => .ok (some n)
    | none => .error .badPort

/-! ## The whole URL -/

def escape (c : Char) : List Char :=
  if 0x20 ≤ c.toNat ∧ c.toNat < 0x7F then [c]
  else (Text.utf8 c.toString).flatMap fun b => '%' :: (Text.Hex.encode [b]).toList.map Char.toUpper

/-- a socket number other than the scheme's own -/
def portText (own : Nat) : Option Nat → List Char
  | some n => if n = own then [] else ':' :: (toString n).toList
  | none => []

/-- path and what follows it -/
def pathText (rest : List Char) : List Char :=
  let path := rest.map fun c => if c = '\\' then '/' else c
  (if path.head? = some '/' then path else '/' :: path).flatMap fun c =>
    if c = ' ' then "%20".toList else escape c

/-- a URL with a host -/
def hosted (scheme : List Char) (own : Nat) (rest : List Char) : Except UrlFault NodeUrl := do
  let (authority, rest) := authority (rest.dropWhile isSlash)
  let site := site authority
  let name := host false site
  let shown ← NodeHost.checked name
  let port ← port? (site.drop (name.length + 1))
  let text := String.ofList (scheme ++ "://".toList ++ shown ++ portText own port ++ pathText rest)
  if String.ofList scheme ∈ webSchemes then return ⟨text⟩ else .error (.scheme text)

/-- the URL of a text -/
def ofText (s : String) : Except UrlFault NodeUrl :=
  match scheme? (cleaned s.toList) with
  | none => .error .relative
  | some (scheme, rest) =>
    match hostedSchemes.find? (·.1 = String.ofList scheme) with
    | some (_, own) => hosted scheme own rest
    | none => .error (.scheme (String.ofList (scheme ++ ':' :: rest.flatMap escape)))

/-- texts that are no URLs of web servers -/
example : ["http://127.0.0.1:99999", "http://localhost:rpc", "http://my node:26657",
    "http://256.256.256.256", "ftp://127.0.0.1/"].map ofText =
    [.error .badPort, .error .badPort, .error .badName, .error .badIpv4,
      .error (.scheme "ftp://127.0.0.1/")] := rfl

end NodeUrl

end LedgerClient
