import LedgerClient.Contract.Table
/-!
# Methods of the token contract

What is said of calls is tried on methods that are there. Their selectors are digests, which take
long to evaluate, so this is done once.

* `ContractTable.selector_of_withId?`   a method that is found by a selector has it;
* `PreparedCall.batchTransfer`          a method that takes a list of addresses;
* `PreparedCall.burn`                   a method that takes an amount and nothing else.
-/

namespace LedgerClient

theorem ContractTable.selector_of_withId? {P : Primitives} {t : ContractTable} {s : Selector}
    {m : MethodSpec} (h : t.withId? P s = some m) : m.selector P = s := by
  unfold withId? at h
  simpa using List.find?_some h

namespace PreparedCall

def batchTransfer : MethodSpec where
  name := "BatchTransfer"
  prototype := "BatchTransfer([]smc.Address,big.Int)smc.Error"
  params := [.addressList, .bigUint]

theorem token_batchTransfer :
    ContractTable.token.withId? .standard ⟨0xb8f4b0d8⟩ = some batchTransfer := by
  decide +kernel

theorem selector_batchTransfer : batchTransfer.selector .standard = ⟨0xb8f4b0d8⟩ :=
  ContractTable.selector_of_withId? token_batchTransfer

def burn : MethodSpec where
  name := "Burn"
  prototype := "Burn(big.Int)smc.Error"
  params := [.bigUint]

theorem token_burn : ContractTable.token.named? "Burn" = some burn := rfl

end PreparedCall

end LedgerClient
