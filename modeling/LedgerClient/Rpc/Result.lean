import LedgerClient.Rpc.Lenient
/-!
# Results of calls

* `BlockHeight.read`, `Nonce.read`   a record of one lenient number;
* `PhaseResult`      how a node took a transaction in one phase: admission or execution;
* `CommitReply`      both phases as they arrive, each of them possibly absent;
* `CommitResult`     both phases, the hash and the height;
* `QueryResult`      the answer to a keyed query.
-/

namespace LedgerClient

def BlockHeight.read : Document.Reader Nat :=
  Document.record [["height"]] fun room fs =>
    match fs with
    | [height] => Document.required Rpc.lenient room height
    | _ => none

def Nonce.read : Document.Reader Nat :=
  Document.record [["nonce"]] fun room fs =>
    match fs with
    | [nonce] => Document.required Rpc.lenient room nonce
    | _ => none

structure PhaseResult where
  code : Nat
  log : String
  data : String
  gasUsed : Option Json
  fee : Option Json

namespace PhaseResult

def isOk (r : PhaseResult) : Bool := r.code == 0

def read : Document.Reader PhaseResult :=
  Document.record [["code"], ["log"], ["data"], ["gas_used", "gasUsed"], ["fee"]] fun room fs =>
    match fs with
    | [code, log, data, gasUsed, fee] => do
      let code ← Document.defaulted (Document.unsigned 32) 0 room code
      let log ← Document.defaulted Document.text "" room log
      let data ← Document.defaulted Document.text "" room data
      let gasUsed ← Document.defaulted (Document.optional Document.value) none room gasUsed
      let fee ← Document.defaulted (Document.optional Document.value) none room fee
      return ⟨code, log, data, gasUsed, fee⟩
    | _ => none

def toJson (r : PhaseResult) : Json :=
  .ofMembers [("code", .nat r.code), ("log", .string r.log), ("data", .string r.data),
    ("gas_used", r.gasUsed.getD .null), ("fee", r.fee.getD .null)]

end PhaseResult

structure CommitReply where
  check : Option PhaseResult
  deliver : Option PhaseResult
  hash : String
  height : Option Nat

def CommitReply.read : Document.Reader CommitReply :=
  Document.record [["check_tx"], ["deliver_tx"], ["hash"], ["height"]] fun room fs =>
    match fs with
    | [check, deliver, hash, height] => do
      let check ← Document.defaulted (Document.optional PhaseResult.read) none room check
      let deliver ← Document.defaulted (Document.optional PhaseResult.read) none room deliver
      let hash ← Document.defaulted Document.text "" room hash
      let height ← Document.defaulted (Document.optional Rpc.lenient) none room height
      return ⟨check, deliver, hash, height⟩
    | _ => none

structure CommitResult where
  check : PhaseResult
  deliver : PhaseResult
  hash : String
  height : Nat

namespace CommitResult

/-- admitted and executed without error -/
def isOk (r : CommitResult) : Bool := r.check.isOk && r.deliver.isOk

def toJson (r : CommitResult) : Json :=
  .ofMembers [("check_tx", r.check.toJson), ("deliver_tx", r.deliver.toJson),
    ("hash", .string r.hash), ("height", .nat r.height)]

end CommitResult

structure QueryResult where
  code : Nat
  log : String
  key : String
  value : String
  height : Option Nat

namespace QueryResult

def read : Document.Reader QueryResult :=
  Document.record [["code"], ["log"], ["key"], ["value"], ["height"]] fun room fs =>
    match fs with
    | [code, log, key, value, height] => do
      let code ← Document.defaulted (Document.unsigned 32) 0 room code
      let log ← Document.defaulted Document.text "" room log
      let key ← Document.defaulted Document.text "" room key
      let value ← Document.defaulted Document.text "" room value
      let height ← Document.defaulted (Document.optional Rpc.lenient) none room height
      return ⟨code, log, key, value, height⟩
    | _ => none

/-- the member that holds the answer -/
def readReply : Document.Reader QueryResult :=
  Document.record [["response"]] fun room fs =>
    match fs with
    | [response] => Document.required read room response
    | _ => none

def toJson (r : QueryResult) : Json :=
  .ofMembers [("code", .nat r.code), ("log", .string r.log), ("key", .string r.key),
    ("value", .string r.value), ("height", (r.height.map Json.nat).getD .null)]

end QueryResult

end LedgerClient
