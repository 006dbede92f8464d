import LockManager.Proofs.Namespace.Relays
import LockManager.Proofs.System.Schedule
import LockManager.Proofs.Task.Opening

set_option autoImplicit false

/-!
What is handed over to the transport. For each lock it is what was queued on it, in order and each
message once, apart from messages that were dropped; and when the dispatcher has nothing to do, every
message of a lock that is neither suppressed nor leaving has been handed over.
-/

namespace LockManager

/-- What is handed over for lock `l`. -/
def messagesTo (l : LockId) (ds : List Delivery) : List Notification :=
  (ds.filter (·.lock = l)).map (·.notification)

theorem Opening.relays {ns ns' : Namespace} {todo : List Stage} (opening : Opening ns todo ns') :
    Mail.Relays ns.mail ns'.mail := by
  cases opening with
  | still plain => exact .refl _
  | @register req _ _ _ _ _ => exact ns.mail_addLock req ▸ .refl _
  | @rebind _ k _ _ => exact ns.mail_findOrCreate k ▸ .refl _
  | glimpse there requester => exact .refl _
  | evict owner => exact ns.relays_silence _
  | shutdown running => exact ns.relays_silence _

namespace Namespace

variable {ns ns' : Namespace}

/-- A worker hands over the first message, or drops those there are of a lock that is muted. -/
theorem drain_hands (ns : Namespace) (l : LockId) : ∃ new,
    (ns.drain l).dispatcher.deliveries = ns.dispatcher.deliveries ++ new ∧
      (∀ k, ns.mail.Mute k → (ns.drain l).mail.Mute k) ∧
      ∀ k, messagesTo k new ++ ((ns.drain l).lock k).pending = (ns.lock k).pending ∨
        messagesTo k new = [] ∧ ((ns.drain l).lock k).pending = [] ∧ (ns.lock k).Muted := by
  have lock (f : Lock → Lock) (g : Dispatcher → Dispatcher) (k : LockId) :
      (((ns.modifyLock l f).modifyDispatcher g).lock k) =
        if l = k ∧ l < ns.locks.size then f (ns.lock k) else ns.lock k := ns.lock_modifyLock f l k
  have mute (f : Lock → Lock) (g : Dispatcher → Dispatcher) (muted : ∀ x, (f x).Muted ↔ x.Muted)
      (closed : ∀ d, (g d).closed = d.closed) (k : LockId) (mute : ns.mail.Mute k) :
      ((ns.modifyLock l f).modifyDispatcher g).mail.Mute k := by
    refine mute.imp (fun before => ?_) fun before => (closed _).trans before
    show (((ns.modifyLock l f).modifyDispatcher g).lock k).Muted
    rw [lock]
    split
    · exact (muted _).mpr before
    · exact before
  rcases ns.drain_cases l with ⟨n, rest, before, stays, after⟩ | ⟨done, after⟩ <;> rw [after]
  · have known : l < ns.locks.size := known_of_pending (before ▸ List.cons_ne_nil n rest)
    refine ⟨[{ lock := l, notification := n, begun := ns.clock }], rfl,
      mute _ _ (fun _ => .rfl) fun _ => rfl, fun k => .inl ?_⟩
    rw [lock]
    by_cases here : l = k
    · subst here
      rw [if_pos ⟨rfl, known⟩, before]
      simp [messagesTo]
    · rw [if_neg fun both => here both.1]
      simp [messagesTo, here]
  · refine ⟨[], (List.append_nil _).symm, mute _ _ (fun _ => .rfl) fun _ => rfl, fun k => ?_⟩
    rw [lock]
    split
    · next here =>
      obtain ⟨rfl, -⟩ := here
      rcases done with none | muted
      · exact .inl none.symm
      · exact .inr ⟨rfl, rfl, muted⟩
    · exact .inl rfl

end Namespace

namespace System

variable {config : Config} {s t : System}

/-! ### Logs -/

/-- What operations and the passing of time do. -/
inductive Works : System → System → Prop where
  | start (s : System) (op : Operation) : Works s (s.start op)
  | hold {s : System} {h : Handle} {l : LockId} (found : s.space.lookup h = .ok l) :
      Works s (s.startHold l s.role)
  | take {s t : System} (i : TaskId) (taken : s.take? i = some t) : Works s t
  | carryOut {s t : System} (i : TaskId) (done : s.carryOut? i = some t) : Works s t
  | checkTimeouts (s : System) : Works s { s with space := s.space.checkTimeouts.2 }
  | pass (s : System) (duration : Nat) :
      Works s { s with space := { s.space with clock := s.space.clock + duration } }

/-- A worker goes on, and hands `new` over to the transport. -/
inductive Hands (s : System) (new : List Delivery) : System → Prop where
  | takeUp {ns : Namespace} (taken : s.space.takeUp? = some ns)
      (handed : ns.dispatcher.deliveries = s.space.dispatcher.deliveries ++ new) :
      Hands s new { s with space := ns }
  | finish {d : Delivery} (busy : d ∈ s.space.dispatcher.deliveries)
      (handed : (s.space.finish d).dispatcher.deliveries =
        s.space.dispatcher.deliveries.erase d ++ new) :
      Hands s new { s with space := s.space.finish d }

/-- Every step is one or the other. -/
theorem step_iff : Step s t ↔ Works s t ∨ ∃ new, Hands s new t := by
  constructor
  · intro step
    cases step with
    | start op => exact .inl (.start s op)
    | hold found => exact .inl (.hold found)
    | take i taken => exact .inl (.take i taken)
    | carryOut i done => exact .inl (.carryOut i done)
    | takeUp taken =>
      obtain ⟨-, l, rest, -, rfl⟩ := Namespace.takeUp?_eq taken
      obtain ⟨new, handed, -⟩ :=
        (s.space.modifyDispatcher ({ · with queue := rest })).drain_hands l
      exact .inr ⟨new, .takeUp taken handed⟩
    | @finish d busy =>
      obtain ⟨new, handed, -⟩ := (s.space.modifyDispatcher fun x =>
        { x with deliveries := x.deliveries.erase d }).drain_hands d.lock
      exact .inr ⟨new, .finish busy handed⟩
    | checkTimeouts => exact .inl (.checkTimeouts s)
    | pass duration => exact .inl (.pass s duration)
  · rintro (works | ⟨new, hands⟩)
    · cases works with
      | start op => exact .start s op
      | hold found => exact .hold found
      | take i taken => exact .take i taken
      | carryOut i done => exact .carryOut i done
      | checkTimeouts => exact .checkTimeouts s
      | pass duration => exact .pass s duration
    · cases hands with
      | takeUp taken handed => exact .takeUp taken
      | finish busy handed => exact .finish busy

/-- What has come to the end of the lock's messages. -/
def queuedBy (s t : System) (l : LockId) : List Notification :=
  (t.space.lock l).pending.drop (s.space.lock l).pending.length

/-- A run with what was `queued` on each lock and `handed` over for it, oldest first. -/
inductive Recorded (config : Config) :
    System → (LockId → List Notification) → (LockId → List Notification) → Prop where
  | create {ns : Namespace} (created : Namespace.create config = .ok ns) :
      Recorded config { space := ns } (fun _ => []) fun _ => []
  | work {s t : System} {queued handed : LockId → List Notification}
      (before : Recorded config s queued handed) (works : Works s t) :
      Recorded config t (fun l => queued l ++ s.queuedBy t l) handed
  | hand {s t : System} {queued handed : LockId → List Notification} {new : List Delivery}
      (before : Recorded config s queued handed) (hands : Hands s new t) :
      Recorded config t queued fun l => handed l ++ messagesTo l new

/-- Every run can be recorded. -/
theorem reachable_iff_recorded :
    Reachable config s ↔ ∃ queued handed, Recorded config s queued handed := by
  constructor
  · intro reachable
    induction reachable using Reachable.induction with
    | create created => exact ⟨_, _, .create created⟩
    | step before last ih =>
      obtain ⟨queued, handed, recorded⟩ := ih
      rcases step_iff.mp last with works | ⟨new, hands⟩
      · exact ⟨_, _, .work recorded works⟩
      · exact ⟨_, _, .hand recorded hands⟩
  · rintro ⟨queued, handed, recorded⟩
    induction recorded with
    | create created => exact ⟨_, created, .refl⟩
    | work before works ih => exact ih.reaches (.single (step_iff.mpr (.inl works)))
    | hand before hands ih => exact ih.reaches (.single (step_iff.mpr (.inr ⟨_, hands⟩)))

theorem Recorded.follow {queued handed : LockId → List Notification} (moves : List Move)
    (before : Recorded config s queued handed) :
    ∃ queued', Recorded config (s.follow moves) queued' handed := by
  induction moves generalizing s queued with
  | nil => exact ⟨_, before⟩
  | cons m moves ih =>
    cases m with
    | start op => exact ih (before.work (.start s op))
    | take i =>
      cases taken : s.take? i with
      | none => simpa [System.follow, move, taken] using ih before
      | some t => simpa [System.follow, move, taken] using ih (before.work (.take i taken))
    | carryOut i =>
      cases done : s.carryOut? i with
      | none => simpa [System.follow, move, done] using ih before
      | some t => simpa [System.follow, move, done] using ih (before.work (.carryOut i done))

/-! ### What the logs tell -/

theorem Works.relays (works : Works s t) (sound : s.Sound)
    (d : s.space.mail.Delivering [] []) : Mail.Relays s.space.mail t.space.mail := by
  cases works with
  | start op => exact (Task.opening_start s.space op).relays
  | hold found => exact .refl _
  | take i taken =>
    obtain ⟨p, -, -, rfl⟩ := take?_eq taken
    exact .refl _
  | carryOut i done =>
    obtain ⟨stage, rest, q, todo, prepared, space, -⟩ := Sound.carryOut_cases done
    rw [space]
    refine Stage.relays d (sound.ready todo prepared).going fun close => ?_
    have needs := Sound.need_of_todo todo
    unfold prepared? at prepared
    rw [needs, close] at prepared
    by_contra busy
    simp [Stage.need, busy] at prepared
  | checkTimeouts => exact s.space.mail_checkTimeouts ▸ .refl _
  | pass duration => exact .refl _

/-- The logs account for all messages, and the dispatcher's books are in order. -/
structure Accounted (s : System) (queued handed : LockId → List Notification) : Prop where
  delivering : s.space.mail.Delivering [] []
  kept : ∀ l, (handed l ++ (s.space.lock l).pending).Sublist (queued l)
  whole : ∀ l, ¬s.space.mail.Mute l → handed l ++ (s.space.lock l).pending = queued l

namespace Accounted

variable {queued handed : LockId → List Notification}

theorem work (accounted : Accounted s queued handed)
    (relays : Mail.Relays s.space.mail t.space.mail) :
    Accounted t (fun l => queued l ++ s.queuedBy t l) handed := by
  obtain ⟨feeds, delivering⟩ := relays
  refine ⟨delivering accounted.delivering, fun l => ?_, fun l heard => ?_⟩
  · rcases feeds.pending l with ⟨more, same⟩ | ⟨gone, -⟩
    · have pending : (t.space.lock l).pending = (s.space.lock l).pending ++ more := same
      rw [queuedBy, pending, List.drop_left, ← List.append_assoc]
      exact (accounted.kept l).append_right more
    · have pending : (t.space.lock l).pending = [] := gone
      rw [queuedBy, pending, List.drop_nil, List.append_nil, List.append_nil]
      exact (List.sublist_append_left ..).trans (accounted.kept l)
  · rcases feeds.pending l with ⟨more, same⟩ | ⟨-, mute⟩
    · have pending : (t.space.lock l).pending = (s.space.lock l).pending ++ more := same
      rw [queuedBy, pending, List.drop_left, ← List.append_assoc]
      exact congrArg (· ++ more) (accounted.whole l fun mute => heard (feeds.mute l mute))
    · exact absurd mute heard

/-- A worker has gone on with the lock `k`. -/
theorem drain {ns : Namespace} {k : LockId} {new : List Delivery}
    (accounted : Accounted s queued handed) (locks : ns.locks = s.space.locks)
    (closed : ns.dispatcher.closed = s.space.dispatcher.closed)
    (delivering : (ns.drain k).mail.Delivering [] [])
    (hands : (ns.drain k).dispatcher.deliveries = ns.dispatcher.deliveries ++ new) :
    Accounted { s with space := ns.drain k } queued fun l => handed l ++ messagesTo l new := by
  obtain ⟨new', hands', mute, pending⟩ := ns.drain_hands k
  rw [hands] at hands'
  obtain rfl := List.append_cancel_left hands'
  have lock : ∀ l, ns.lock l = s.space.lock l := fun l => congrArg (Arena.get · l) locks
  have heard (l : LockId) (still : ¬(ns.drain k).mail.Mute l) : ¬s.space.mail.Mute l := by
    intro before
    refine still (mute l (before.imp (fun muted => ?_) fun shut => closed.trans shut))
    show (ns.lock l).Muted
    rw [lock]
    exact muted
  refine ⟨delivering, fun l => ?_, fun l still => ?_⟩ <;> rw [List.append_assoc]
  · rcases pending l with first | ⟨none, gone, -⟩
    · rw [first, lock]
      exact accounted.kept l
    · rw [none, gone, List.append_nil, List.append_nil]
      exact (List.sublist_append_left ..).trans (accounted.kept l)
  · rcases pending l with first | ⟨-, -, muted⟩
    · rw [first, lock]
      exact accounted.whole l (heard l still)
    · rw [lock] at muted
      exact absurd (.inl muted) (heard l still)

theorem hand {new : List Delivery} (accounted : Accounted s queued handed)
    (hands : Hands s new t) : Accounted t queued fun l => handed l ++ messagesTo l new := by
  cases hands with
  | takeUp taken handed =>
    have delivering := Namespace.delivering_takeUp accounted.delivering taken
    obtain ⟨-, l, rest, -, rfl⟩ := Namespace.takeUp?_eq taken
    exact accounted.drain rfl rfl delivering handed
  | finish busy handed =>
    exact accounted.drain rfl rfl (Namespace.delivering_finish accounted.delivering busy) handed

end Accounted

theorem Recorded.accounted {queued handed : LockId → List Notification}
    (recorded : Recorded config s queued handed) : Accounted s queued handed := by
  induction recorded with
  | create created =>
    obtain ⟨-, rfl⟩ := Namespace.create_eq_ok.mp created
    refine ⟨⟨.nil, fun l => ?_, rfl, Nat.zero_le _, fun l => absurd rfl⟩, fun l => .slnil,
      fun l _ => rfl⟩
    exact iff_of_false Bool.false_ne_true List.not_mem_nil
  | @work s t queued handed before works ih =>
    have sound := (reachable_iff_recorded.mpr ⟨_, _, before⟩).sound
    exact ih.work (works.relays sound ih.delivering)
  | hand before hands ih => exact ih.hand hands

theorem Sound.config_step (sound : s.Sound) (step : Step s t) :
    t.space.config = s.space.config := by
  rcases sound.change step with ⟨op, space⟩ | ⟨stage, r, ready, space⟩ | same
  · rw [space]
    exact (Task.begun_start sound.space op).config
  · rw [space]
    exact (ready.effect sound.space).config
  · exact congrArg Ledger.config same.ledger

/-- A namespace keeps the settings it was created with. -/
theorem Reachable.config_eq (reachable : Reachable config s) : s.space.config = config := by
  induction reachable using Reachable.induction with
  | create created =>
    obtain ⟨-, rfl⟩ := Namespace.create_eq_ok.mp created
    rfl
  | step before last ih => exact (before.sound.config_step last).trans ih

end System
end LockManager
