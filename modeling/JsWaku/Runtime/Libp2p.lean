import Mathlib.Data.List.Basic

/-!
# libp2p

What the modules share of libp2p: peer ids and open connections.
-/

namespace JsWaku

/-- A peer id, as its string. -/
abbrev PeerId := String

/-- An open connection. -/
structure Connection where
  id : ℕ
  remotePeer : PeerId
  tags : List String
  deriving DecidableEq, Repr

end JsWaku
