import LedgerClient.Selector
/-!
# Method tables

The methods of a contract as data: name, prototype and kinds of parameters. The prototype alone
decides the selector.

* `MethodSpec.selector`   from the prototype;
* `ContractTable.named?`, `ContractTable.withId?`   the first method of a name or of a selector;
* `ContractTable.token`   the token contract.
-/

namespace LedgerClient

inductive ParamKind where
  | str
  | address
  | addressList
  | bigUint
  | uint64
  | uint32
  | bool
  | bytes
deriving DecidableEq

def ParamKind.name : ParamKind → String
  | .str => "Str"
  | .address => "Address"
  | .addressList => "AddressList"
  | .bigUint => "BigUint"
  | .uint64 => "Uint64"
  | .uint32 => "Uint32"
  | .bool => "Bool"
  | .bytes => "Bytes"

def ParamKind.all : List ParamKind :=
  [.str, .address, .addressList, .bigUint, .uint64, .uint32, .bool, .bytes]

structure MethodSpec where
  name : String
  prototype : String
  params : List ParamKind
deriving DecidableEq

def MethodSpec.selector (P : Primitives) (m : MethodSpec) : Selector :=
  .ofPrototype P m.prototype

def MethodSpec.selectorHex (P : Primitives) (m : MethodSpec) : String :=
  "0x" ++ (m.selector P).hex

structure ContractTable where
  name : String
  methods : List MethodSpec
deriving DecidableEq

namespace ContractTable

def named? (t : ContractTable) (name : String) : Option MethodSpec :=
  t.methods.find? (·.name = name)

def withId? (P : Primitives) (t : ContractTable) (s : Selector) : Option MethodSpec :=
  t.methods.find? (·.selector P = s)

def token : ContractTable where
  name := "token-basic"
  methods :=
    [⟨"Transfer", "Transfer(smc.Address,big.Int)smc.Error", [.address, .bigUint]⟩,
     ⟨"BatchTransfer", "BatchTransfer([]smc.Address,big.Int)smc.Error", [.addressList, .bigUint]⟩,
     ⟨"SetGasPrice", "SetGasPrice(uint64)smc.Error", [.uint64]⟩,
     ⟨"SetOwner", "SetOwner(smc.Address)smc.Error", [.address]⟩,
     ⟨"AddSupply", "AddSupply(big.Int)smc.Error", [.bigUint]⟩,
     ⟨"Burn", "Burn(big.Int)smc.Error", [.bigUint]⟩,
     ⟨"SetGasPayer", "SetGasPayer(smc.Address)smc.Error", [.address]⟩]

end ContractTable

end LedgerClient
