import LockManager.Cluster

set_option autoImplicit false

/-!
Everything that clients of different owners can do with a server that nobody interferes with, one act at
a time and in any order. Messages are handed over and delivered at any time, and time passes.
-/

namespace LockManager

/-- A cluster, and the locks that its clients have been given. -/
structure Scene where
  cluster : Cluster
  given : List (ClientId × LockPair) := []

inductive Act where
  | connect (owner : Owner)
  | enqueue (i : ClientId) (key : Key) (mode : Mode)
  | convert (i : ClientId) (lock : LockPair) (mode : Mode)
  | cancel (i : ClientId) (lock : LockPair)
  /-- Client `i` reads its next message, and waits for it if there is none. -/
  | next (i : ClientId) (wait : Nat)
  /-- A worker takes up a lock that has messages. -/
  | takeUp
  /-- The transport delivers a message. -/
  | deliver (d : Delivery)
  /-- The server makes the look at the holders that is due. -/
  | catchUp
  | pass (duration : Nat)

namespace Scene

def client (s : Scene) (i : ClientId) : Client := s.cluster.client i

def act (s : Scene) : Act → Scene
  | .connect owner => { s with cluster := (s.cluster.connect owner).2 }
  | .enqueue i key mode =>
    let (answer, cluster) := s.cluster.enqueue i key mode
    { cluster, given := (answer.toOption.map (i, ·)).toList ++ s.given }
  | .convert i lock mode => { s with cluster := (s.cluster.convert i lock mode).2 }
  | .cancel i lock => { s with cluster := (s.cluster.cancel i lock).2 }
  | .next i wait => { s with cluster := (s.cluster.next i wait).2 }
  | .takeUp =>
    { s with cluster := { s.cluster with
        server := s.cluster.server.takeUp?.getD s.cluster.server } }
  | .deliver d => { s with cluster := s.cluster.deliver d }
  | .catchUp => { s with cluster := s.cluster.catchUp }
  | .pass duration => { s with cluster := s.cluster.pass duration }

/-- Owners connect once, clients use the locks that they have been given themselves, and only what is
on its way is delivered. -/
def Allows (s : Scene) : Act → Prop
  | .connect owner => ∀ i < s.cluster.clients.size, (s.client i).owner ≠ owner
  | .enqueue i _ _ | .next i _ => i < s.cluster.clients.size
  | .convert i lock _ | .cancel i lock => (i, lock) ∈ s.given
  | .deliver d => d ∈ s.cluster.server.dispatcher.deliveries
  | .takeUp | .catchUp | .pass _ => True

instance (s : Scene) : (a : Act) → Decidable (s.Allows a)
  | .connect owner =>
    inferInstanceAs (Decidable (∀ i < s.cluster.clients.size, (s.client i).owner ≠ owner))
  | .enqueue i _ _ | .next i _ => inferInstanceAs (Decidable (i < s.cluster.clients.size))
  | .convert i lock _ | .cancel i lock => inferInstanceAs (Decidable ((i, lock) ∈ s.given))
  | .deliver d => inferInstanceAs (Decidable (d ∈ s.cluster.server.dispatcher.deliveries))
  | .takeUp | .catchUp | .pass _ => inferInstanceAs (Decidable True)

/-- What can come about with a server that was created with `config`, by acts that may be done. -/
inductive Reached (config : Config) (may : Scene → Act → Prop) : Scene → Prop where
  | start {c : Cluster} (started : Cluster.start config = .ok c) : Reached config may { cluster := c }
  | act {s : Scene} (before : Reached config may s) (a : Act) (allowed : s.Allows a) (wise : may s a) :
      Reached config may (s.act a)

end Scene

end LockManager
