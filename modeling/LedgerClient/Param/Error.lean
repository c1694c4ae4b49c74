import LedgerClient.Rlp.Header
import LedgerClient.Text.Hex
/-!
# What can be wrong with call parameters

* `ItemError`    a text item that stands for no bytes;
* `ParamError`   a parameter list that is malformed, or a field that is not of the kind asked for.
-/

namespace LedgerClient

inductive ItemError where
  | invalidHex (index : Nat) (fault : Text.Hex.Error)
deriving DecidableEq

def ItemError.message : ItemError → String
  | .invalidHex i e => "item " ++ toString i ++ " is not valid hex: " ++ e.message

/-- why bytes are no parameter list -/
inductive ListFault where
  | notAList
  | item (fault : Rlp.Fault)
deriving DecidableEq

def ListFault.message : ListFault → String
  | .notAList => "not a list"
  | .item f => f.message

inductive ParamError where
  | malformed (fault : ListFault)
  | tooFew (expected got : Nat)
  | tooLong (index length max : Nat)
  | notText (index : Nat)
  | misaligned (index length width : Nat)
deriving DecidableEq

def ParamError.message : ParamError → String
  | .malformed f => "malformed parameter list: " ++ f.message
  | .tooFew expected got =>
    "too few parameters: expected at least " ++ toString expected ++ ", got " ++ toString got
  | .tooLong i n m =>
    "field " ++ toString i ++ " is " ++ toString n ++ " bytes, wider than " ++ toString m
  | .notText i => "field " ++ toString i ++ " is not valid UTF-8"
  | .misaligned i n w =>
    "field " ++ toString i ++ " is " ++ toString n ++ " bytes, not a multiple of " ++ toString w

end LedgerClient
