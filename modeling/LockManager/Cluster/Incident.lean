import LockManager.Cluster.Scene

set_option autoImplicit false

/-!
Everything that can happen to a cluster whose clients have different owners. Besides what clients do with
their locks and what goes on by itself, connections are cut and restored, requests are sent past the
clients' own locks, an administrator steps in, and the server goes down.
-/

namespace LockManager

inductive Incident where
  | act (a : Act)
  | partition (owner : Owner)
  | heal (owner : Owner)
  /-- Client `i` sends a request that its own locks have no part in. -/
  | send (i : ClientId) (req : Request)
  | execute (command : AdminCommand)
  | evict (owner : Owner)
  /-- The server cancels everything and refuses requests from then on. -/
  | stop
  /-- The server is done with its messages. -/
  | close

namespace Incident

/-- A client asks for a lock or cancels one. -/
def isTrade : Incident → Bool
  | .act (.enqueue ..) | .act (.cancel ..) => true
  | _ => false

end Incident

namespace Scene

def undergo (s : Scene) : Incident → Scene
  | .act a => s.act a
  | .partition owner => { s with cluster := s.cluster.partition owner }
  | .heal owner => { s with cluster := s.cluster.heal owner }
  | .send i req => { s with cluster := (s.cluster.send i req).2 }
  | .execute command => { s with cluster := (s.cluster.execute command).2 }
  | .evict owner => { s with cluster := (s.cluster.evict owner).2 }
  | .stop => { s with cluster := { s.cluster with server := s.cluster.server.shutdown } }
  | .close => { s with cluster := { s.cluster with server := s.cluster.server.closeDispatcher } }

/-- Acts have to be allowed, and whoever sends a request has connected. -/
def Permits (s : Scene) : Incident → Prop
  | .act a => s.Allows a
  | .send i _ => i < s.cluster.clients.size
  | .partition _ | .heal _ | .execute _ | .evict _ | .stop | .close => True

instance (s : Scene) : (x : Incident) → Decidable (s.Permits x)
  | .act a => inferInstanceAs (Decidable (s.Allows a))
  | .send i _ => inferInstanceAs (Decidable (i < s.cluster.clients.size))
  | .partition _ | .heal _ | .execute _ | .evict _ | .stop | .close => inferInstanceAs (Decidable True)

/-- What the incidents lead to with a server that was created with `config`. -/
inductive Story (config : Config) : List Incident → Scene → Prop where
  | start {c : Cluster} (started : Cluster.start config = .ok c) : Story config [] { cluster := c }
  | next {xs : List Incident} {s : Scene} (before : Story config xs s) (x : Incident)
      (permitted : s.Permits x) : Story config (xs ++ [x]) (s.undergo x)

end Scene

end LockManager
