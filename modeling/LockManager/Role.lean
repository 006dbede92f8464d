set_option autoImplicit false

/-!
The side of the protocol that a namespace serves. On the server side a lock stays with the resource it
was created on; on the client side it may move to another one while it is new.
-/

namespace LockManager

inductive Role where
  | server
  | client
  deriving DecidableEq, Repr, Inhabited

namespace Role

def name : Role → String
  | .server => "server"
  | .client => "client"

/-- Names are accepted in either ASCII case. -/
def ofName? (s : String) : Option Role :=
  [server, client].find? (·.name.toList == s.toList.map Char.toLower)

end Role

end LockManager
