/-!
# Chains and kinds of envelopes

* `Chain`               a chain by its id, which addresses on it start with;
* `EnvelopeKind.mark`   the first field of an envelope: the chain id and the kind's tag.
-/

namespace LedgerClient

/-- the chain that addresses and envelopes belong to -/
structure Chain where
  id : String
deriving DecidableEq

/-- which record an envelope carries -/
inductive EnvelopeKind where
  | transaction
  | query
deriving DecidableEq

namespace EnvelopeKind

def tag : EnvelopeKind → String
  | transaction => "<tx>"
  | query => "<qy>"

def mark (k : EnvelopeKind) (c : Chain) : String := c.id ++ k.tag

end EnvelopeKind

end LedgerClient
