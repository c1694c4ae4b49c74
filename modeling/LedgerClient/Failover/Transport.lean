import LedgerClient.Failover.NodeUrl
/-!
# What a client relies on

A client leaves it to others to read the texts of its nodes as URLs, to tell what is wrong with a
body, and to make the clock go on while it looks at what has come back.

* `Transport`            all of this, whatever it is;
* `Transport.standard`   URLs as `NodeUrl.ofText` reads them, and no time lost.
-/

namespace LedgerClient

structure Transport where
  /-- the URL of a node's text, or what its error says behind the words that all of them share -/
  url : String → Except String NodeUrl
  /-- why a body is no response -/
  bodyFault : Bytes → String
  /-- how much time passes between the end of an attempt and what is done next, by the position of
  its node and the time at which it started -/
  lag : (index started : Nat) → Nat

def Transport.standard (bodyFault : Bytes → String) : Transport where
  url s := (NodeUrl.ofText s).mapError UrlFault.detail
  bodyFault := bodyFault
  lag _ _ := 0

end LedgerClient
