import LedgerClient.Chain
import LedgerClient.Json.Fields
/-!
# Client configuration

* `ClientConfig`     which nodes to ask, on which chain, how, and for how long;
* `ClientConfig.validate`   what the rest of the library relies on, the first fault winning;
* `ClientConfig.parse`      reads and validates a JSON text;
* `LogFormat.ofText` the format of log lines.

`tls` and `mode` are given as a record that names its variant, `tls` in `mode` and `mode` in
`strategy`.
-/

namespace LedgerClient

/-- how certificates of nodes are checked -/
inductive TlsPolicy where
  | verify (bundle : Option String)
  | insecure
deriving DecidableEq

/-- how nodes are chosen: in order, or up to so many at once -/
inductive FailoverMode where
  | sequential
  | race (concurrency : Nat)
deriving DecidableEq

structure ClientConfig where
  chainId : String
  nodes : List String
  keystorePath : Option String
  tls : TlsPolicy
  timeoutSeconds : Nat
  mode : FailoverMode
deriving DecidableEq

inductive ConfigError where
  | parse
  | emptyChainId
  | noNodes
  | badScheme (node : String)
  | zeroTimeout
  | zeroConcurrency
deriving DecidableEq

def ConfigError.message : ConfigError → String
  | .parse => "config parse error"
  | .emptyChainId => "chain identifier must not be empty"
  | .noNodes => "at least one node address is required"
  | .badScheme node => "node address " ++ node ++ " must use http:// or https://"
  | .zeroTimeout => "request timeout must be positive"
  | .zeroConcurrency => "race concurrency must be at least 1"

namespace FailoverMode

def defaultConcurrency : Nat := 3

/-- at least one request at a time -/
def normal : FailoverMode → FailoverMode
  | .race 0 => .race 1
  | m => m

def shown : FailoverMode → String
  | .sequential => "Sequential"
  | .race n => "Race \x7b concurrency: " ++ toString n ++ " \x7d"

end FailoverMode

/-! ## Records that name their variant -/

/-- splits off the member `tag`, which must be there once; the other members must be values -/
def takeTag (tag : String) (room : Nat) : List (Option String × Document) →
    Option (Option String × List (Option String × Document))
  | [] => some (none, [])
  | (none, _) :: _ => none
  | (some name, d) :: ms => do
    let (found, rest) ← takeTag tag room ms
    if name = tag then
      match found with
      | some _ => none
      | none => return (some (← Document.text room d), rest)
    else
      let v ← Document.value? room d
      return (found, (some name, Document.ofValue v) :: rest)

/-- the variant's name, and the record without it -/
def tagged (tag : String) : Document.Reader (String × Document)
  | room + 1, .object ms => do
    let (found, rest) ← takeTag tag room ms
    let name ← found
    return (name, .object rest)
  | room + 1, .array (d :: items) => do
    let name ← Document.text room d
    let vs ← Document.values? room items
    return (name, .array (Document.ofValues vs))
  | _, _ => none

/-- a variant without fields: any object, or an empty array -/
def isBare : Document → Bool
  | .object _ => true
  | .array items => items.isEmpty
  | _ => false

def TlsPolicy.read : Document.Reader TlsPolicy := fun room d => do
  let (name, rest) ← tagged "mode" room d
  if name = "verify" then
    Document.record [["ca_pem_path"]] (fun room fs =>
      match fs with
      | [path] => (Document.defaulted (Document.optional Document.text) none room path).map .verify
      | _ => none) room rest
  else if name = "insecure_skip_verify" then if isBare rest then some .insecure else none
  else none

def FailoverMode.read : Document.Reader FailoverMode := fun room d => do
  let (name, rest) ← tagged "strategy" room d
  if name = "sequential" then if isBare rest then some .sequential else none
  else if name = "race" then
    Document.record [["concurrency"]] (fun room fs =>
      match fs with
      | [n] => (Document.defaulted (Document.unsigned 64) defaultConcurrency room n).map .race
      | _ => none) room rest
  else none

namespace ClientConfig

def defaultTimeoutSeconds : Nat := 60

def read : Document.Reader ClientConfig :=
  Document.record [["chain_id"], ["nodes"], ["keystore_path"], ["tls"], ["request_timeout_secs"],
    ["mode"]] fun room fs =>
    match fs with
    | [chainId, nodes, path, tls, timeout, mode] => do
      let chainId ← Document.required Document.text room chainId
      let nodes ← Document.required (Document.listOf Document.text) room nodes
      let path ← Document.defaulted (Document.optional Document.text) none room path
      let tls ← Document.required TlsPolicy.read room tls
      let timeout ← Document.defaulted (Document.unsigned 64) defaultTimeoutSeconds room timeout
      let mode ← Document.defaulted FailoverMode.read .sequential room mode
      return ⟨chainId, nodes, path, tls, timeout, mode⟩
    | _ => none

def hasScheme (node : String) : Bool :=
  "http://".toList.isPrefixOf node.toList || "https://".toList.isPrefixOf node.toList

def validate (c : ClientConfig) : Except ConfigError Unit :=
  if c.chainId = "" then .error .emptyChainId
  else if c.nodes = [] then .error .noNodes
  else
    match c.nodes.find? (!hasScheme ·) with
    | some node => .error (.badScheme node)
    | none =>
      if c.timeoutSeconds = 0 then .error .zeroTimeout
      else if c.mode = .race 0 then .error .zeroConcurrency
      else .ok ()

def parse (text : String) : Except ConfigError ClientConfig :=
  match Document.readText read text with
  | none => .error .parse
  | some c => (validate c).map fun _ => c

def chain (c : ClientConfig) : Chain := ⟨c.chainId⟩

end ClientConfig

/-! ## Log lines -/

inductive LogFormat where
  | json
  | pretty
deriving DecidableEq

/-- `json` in letters of either case, and everything else is pretty -/
def LogFormat.ofText (s : String) : LogFormat :=
  if s.toList.map Char.toLower = ['j', 's', 'o', 'n'] then .json else .pretty

end LedgerClient
