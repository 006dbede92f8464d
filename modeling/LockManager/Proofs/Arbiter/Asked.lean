import LockManager.Proofs.Arbiter.Avoids

set_option autoImplicit false

/-!
Who has been asked to give way. A holder that has been asked remains so until it is granted something,
and whoever stands in the way of someone is asked, if it can be, whenever the resource is looked at again.
-/

namespace LockManager

namespace Lock

/-- The lock has been asked to give way since it was last granted something, or cannot be asked. -/
def Asked (x : Lock) : Prop := x.blockingSent = true ∨ x.Muted

/-- A lock on its way out has remained so, and one that had been asked to give way too. -/
structure Heeds (x x' : Lock) : Prop where
  leaving : x.state.leaving = true → x'.state.leaving = true
  asked : x.Asked → x'.Asked

namespace Heeds

variable {x x' x'' : Lock}

theorem refl (x : Lock) : Heeds x x := ⟨id, id⟩

theorem trans (first : Heeds x x') (second : Heeds x' x'') : Heeds x x'' :=
  ⟨second.leaving ∘ first.leaving, second.asked ∘ first.asked⟩

theorem of_same (sent : x'.blockingSent = x.blockingSent) (suppressed : x'.suppressed = x.suppressed)
    (leaving : x.state.leaving = true → x'.state.leaving = true) : Heeds x x' := by
  refine ⟨leaving, Or.imp (fun asked => sent.trans asked) (Or.imp (fun muted => ?_) leaving)⟩
  exact suppressed.trans muted

end Heeds
end Lock

namespace Arbiter

variable {a a' a'' : Arbiter} {k l : LockId}

/-! ### Asking to give way -/

/-- Nobody is granted anything, and whoever had been asked to give way still has. -/
structure Nags (a a' : Arbiter) : Prop where
  queues : a'.queues = a.queues
  size : a'.locks.size = a.locks.size
  state : ∀ k, (a'.lock k).state = (a.lock k).state
  asked : ∀ k, (a.lock k).Asked → (a'.lock k).Asked

namespace Nags

theorem refl (a : Arbiter) : Nags a a := ⟨rfl, rfl, fun _ => rfl, fun _ => id⟩

theorem trans (first : Nags a a') (second : Nags a' a'') : Nags a a'' :=
  ⟨second.queues.trans first.queues, second.size.trans first.size,
    fun k => (second.state k).trans (first.state k), fun k => second.asked k ∘ first.asked k⟩

theorem heeds (nags : Nags a a') (k : LockId) : (a.lock k).Heeds (a'.lock k) :=
  ⟨fun leaving => (nags.state k).symm ▸ leaving, nags.asked k⟩

theorem foldl {f : Arbiter → Entry → Arbiter} (each : ∀ a e, Nags a (f a e)) (es : List Entry)
    (a : Arbiter) : Nags a (es.foldl f a) := by
  induction es generalizing a with
  | nil => exact refl a
  | cons e es ih => exact (each a e).trans (ih (f a e))

/-- Whoever is asked for one of the entries has been asked in the end. -/
theorem asked_foldl {f : Arbiter → Entry → Arbiter} (each : ∀ a e, Nags a (f a e))
    {es : List Entry} {x : Entry} (chosen : x ∈ es) {a : Arbiter}
    (mine : ∀ b, Nags a b → ((f b x).lock k).Asked) : ((es.foldl f a).lock k).Asked := by
  induction es generalizing a with
  | nil => cases chosen
  | cons e es ih =>
    rcases List.mem_cons.mp chosen with rfl | later
    · exact (foldl each es (f a x)).asked k (mine a (refl a))
    · exact ih later fun b after => mine b ((each a e).trans after)

end Nags

/-- Nobody is asked twice, and nobody who is muted. -/
theorem ask_of_asked {e : Entry} (asked : (a.lock e.claim.id).Asked) (claim : Claim) (mode : Mode) :
    a.ask claim mode e = a := by
  unfold ask
  dsimp only
  rw [if_pos]
  rcases asked with sent | suppressed | leaving
  · simp [sent]
  · simp [suppressed]
  · simp [leaving]

theorem lock_ask {e : Entry} (fresh : ¬(a.lock e.claim.id).Asked) (claim : Claim) (mode : Mode)
    (k : LockId) : (a.ask claim mode e).lock k =
      if e.claim.id = k ∧ e.claim.id < a.locks.size then
        { (a.lock k).push (.giveWay (a.lock e.claim.id) e.mode claim mode) with
          blockingSent := true, blockingSentAt := some a.now }
      else a.lock k := by
  simp only [Lock.Asked, Lock.Muted, not_or, Bool.not_eq_true] at fresh
  obtain ⟨unsent, heard, stays⟩ := fresh
  unfold ask
  simp only [unsent, heard, stays, Bool.or_self, Bool.false_eq_true, if_false]
  rw [lock_modifyLock, size_notify, lock_notify]
  simp only [heard, and_true]
  split <;> rfl

theorem nags_notify (a : Arbiter) (l : LockId) (n : Notification) : Nags a (a.notify l n) := by
  refine ⟨a.queues_notify l n, a.size_notify l n, fun k => ?_, fun k before => ?_⟩
  · exact congrArg Standing.state (a.standing_notify l n k)
  · rw [lock_notify]
    split
    · exact before
    · exact before

theorem size_ask (a : Arbiter) (claim : Claim) (mode : Mode) (e : Entry) :
    (a.ask claim mode e).locks.size = a.locks.size := by
  unfold ask
  dsimp only
  split
  · rfl
  · exact (Arena.size_modify ..).trans (a.size_notify ..)

theorem nags_ask (a : Arbiter) (claim : Claim) (mode : Mode) (e : Entry) :
    Nags a (a.ask claim mode e) := by
  by_cases asked : (a.lock e.claim.id).Asked
  · rw [ask_of_asked asked]
    exact .refl a
  · have lock := lock_ask asked claim mode
    refine ⟨a.queues_ask .., a.size_ask .., fun k => ?_, fun k before => ?_⟩
    all_goals
      rw [lock]
      split
    · rfl
    · rfl
    · exact .inl rfl
    · exact before

theorem asked_ask {e : Entry} (known : e.claim.id < a.locks.size) (claim : Claim) (mode : Mode) :
    ((a.ask claim mode e).lock e.claim.id).Asked := by
  by_cases asked : (a.lock e.claim.id).Asked
  · rw [ask_of_asked asked]
    exact asked
  · rw [lock_ask asked, if_pos ⟨rfl, known⟩]
    exact .inl rfl

theorem nags_askHolders (a : Arbiter) (claim : Claim) (mode : Mode) :
    Nags a (a.askHolders claim mode) :=
  Nags.foldl (fun b e => b.nags_ask claim mode e) _ a

/-- Whoever stands against a claim has been asked for it. -/
theorem asked_askHolders {g : Entry} (holds : g ∈ a.queues.granted)
    (known : g.claim.id < a.locks.size) {claim : Claim} {mode : Mode}
    (against : g.opposes claim mode = true) :
    ((a.askHolders claim mode).lock g.claim.id).Asked := by
  refine Nags.asked_foldl (x := g) (fun b e => b.nags_ask claim mode e)
    (List.mem_filter.mpr ⟨holds, against⟩) fun b after => ?_
  exact asked_ask (after.size.symm ▸ known) claim mode

theorem nags_askFor (a : Arbiter) (w : Entry) : Nags a (a.askFor w) := by
  unfold askFor
  split
  · exact .refl a
  · exact a.nags_askHolders _ _

/-- When a resource has been looked at again, whoever is in the way of somebody who stays has been
asked. -/
theorem asked_reprocess (a : Arbiter) {w g : Entry}
    (wants : w ∈ a.reprocess.queues.converting ∨ w ∈ a.reprocess.queues.waiting)
    (holds : g ∈ a.reprocess.queues.granted) (known : g.claim.id < a.reprocess.locks.size)
    (against : g.opposes w.claim w.mode = true)
    (stays : (a.reprocess.lock w.claim.id).state.leaving = false) :
    (a.reprocess.lock g.claim.id).Asked := by
  unfold reprocess at *
  dsimp only at *
  generalize a.queues.converting.foldl retryConversion a = b at *
  generalize b.queues.waiting.foldl retryWaiter b = c at *
  have nags := Nags.foldl nags_askFor (c.queues.converting ++ c.queues.waiting) c
  rw [nags.queues] at wants holds
  rw [nags.size] at known
  rw [nags.state] at stays
  refine Nags.asked_foldl nags_askFor (List.mem_append.mpr wants) fun d after => ?_
  unfold askFor
  rw [after.state, if_neg (by simp [stays])]
  exact asked_askHolders (after.queues.symm ▸ holds) (after.size.symm ▸ known) against

theorem nags_glimpse (a : Arbiter) (requester : Owner) : Nags a (a.glimpse requester).1 := by
  unfold glimpse
  generalize a.queues.granted.filter _ = holders
  generalize 0 = n
  induction holders generalizing a n with
  | nil => exact .refl a
  | cons e rest ih =>
    rw [List.foldl_cons]
    dsimp only
    split
    · exact ih a n
    · exact (a.nags_notify _ _).trans (ih _ _)

end Arbiter

/-! ### Whoever stands in the way -/

namespace Queues

theorem entries_addGranted (q : Queues) (e : Entry) : q.entries ⊆ (q.addGranted e).entries := by
  intro x inside
  simp only [mem_entries, addGranted, List.mem_append] at inside ⊢
  tauto

theorem entries_addConverting (q : Queues) (e : Entry) :
    q.entries ⊆ (q.addConverting e).entries := by
  intro x inside
  simp only [mem_entries, addConverting, List.mem_append] at inside ⊢
  tauto

theorem entries_addWaiting (q : Queues) (e : Entry) : q.entries ⊆ (q.addWaiting e).entries := by
  intro x inside
  rcases mem_entries.mp inside with held | waits
  · exact mem_entries.mpr (.inl held)
  · exact mem_entries.mpr (.inr (mem_addWaiting.mpr (.inr waits)))

end Queues

/-- The entry is not granted yet, or not with the mode that it is for. -/
def Queues.Wants (q : Queues) (w : Entry) : Prop := w ∈ q.converting ∨ w ∈ q.waiting

/-- The lock of `w` is on its way out, or that of `g` has been asked to give way. -/
def Heeded (lock : LockId → Lock) (w g : Entry) : Prop :=
  (lock w.claim.id).state.leaving = true ∨ (lock g.claim.id).Asked

/-- What a change on a resource means for an entry `w` and a holder `g` that stands in its way. Either
`g` has been asked, or both were there before, or `g` has been granted as it came, past `w`. -/
inductive Minds (lock lock' : LockId → Lock) (q q' : Queues) (w g : Entry) : Prop where
  | heeded (heeded : Heeded lock' w g)
  | before (wants : q.Wants w) (holds : g ∈ q.granted) (heeds : Heeded lock w g → Heeded lock' w g)
      (kept : q.entries ⊆ q'.entries)
  | newcomer (wants : q.Wants w) (new : (lock g.claim.id).state = .new)

/-- Whatever comes after may ask more holders to give way. -/
theorem Minds.after {lock lock' lock'' : LockId → Lock} {q q' : Queues} {w g : Entry}
    (minds : Minds lock lock' q q' w g) (heeds : Heeded lock' w g → Heeded lock'' w g) :
    Minds lock lock'' q q' w g := by
  cases minds with
  | heeded heeded => exact .heeded (heeds heeded)
  | before wants holds kept inside => exact .before wants holds (heeds ∘ kept) inside
  | newcomer wants new => exact .newcomer wants new

theorem Heeded.mono {lock lock' : LockId → Lock} {w g : Entry}
    (waiter : (lock w.claim.id).Heeds (lock' w.claim.id))
    (holder : (lock g.claim.id).Heeds (lock' g.claim.id)) (heeded : Heeded lock w g) :
    Heeded lock' w g :=
  heeded.imp waiter.leaving holder.asked

/-- While a lock comes to the resource the others stay as they were, or are asked. The newcomer has not
begun to leave. -/
theorem Minds.of_others {lock lock' : LockId → Lock} {q q' : Queues} {w g : Entry} {l : LockId}
    (new : (lock l).state = .new) (heeds : ∀ k, k ≠ l → (lock k).Heeds (lock' k)) (wants : q.Wants w)
    (holds : g ∈ q.granted) (kept : q.entries ⊆ q'.entries) : Minds lock lock' q q' w g := by
  by_cases self : g.claim.id = l
  · exact .newcomer wants (self ▸ new)
  · refine .before wants holds (Or.imp (fun leaving => ?_) (heeds _ self).asked) kept
    have other : w.claim.id ≠ l := by
      intro same
      rw [same, new] at leaving
      cases leaving
    exact (heeds _ other).leaving leaving

namespace Arbiter

variable {a : Arbiter}

theorem recordBypass_keeps (a : Arbiter) (claim : Claim) (mode : Mode) :
    (a.recordBypass claim mode).queues = a.queues ∧
      ∀ k, ∃ n, (a.recordBypass claim mode).lock k = { a.lock k with bypassed := n } := by
  unfold recordBypass
  generalize List.filter _ _ = es
  induction es generalizing a with
  | nil => exact ⟨rfl, fun k => ⟨_, rfl⟩⟩
  | cons e es ih =>
    obtain ⟨queues, lock⟩ := ih (a.modifyLock e.claim.id Lock.passOver)
    refine ⟨queues, fun k => ?_⟩
    obtain ⟨n, same⟩ := lock k
    rw [lock_modifyLock] at same
    split at same
    · exact ⟨n, same⟩
    · exact ⟨n, same⟩

theorem queues_grant (a : Arbiter) (claim : Claim) (mode : Mode) (tell : Bool) :
    (a.grant claim mode tell).queues = a.queues.addGranted ⟨claim, mode⟩ ∨
      a.grant claim mode tell = a := by
  unfold grant
  split
  · next entered =>
    obtain ⟨-, -, rfl⟩ := enter?_eq entered
    refine .inl (congrArg (Queues.addGranted · ⟨claim, mode⟩) ?_)
    cases tell
    · rfl
    · exact queues_notify ..
  · exact .inr rfl

/-- A lock that is granted as it comes is nobody's concern but that of those it passes over. -/
theorem minds_accept {b : Arbiter} {claim : Claim} {mode : Mode} (new : (a.lock claim.id).state = .new)
    (queues : b.queues = a.queues) (others : ∀ k, k ≠ claim.id → b.lock k = a.lock k) {w g : Entry}
    (wants : ((b.recordBypass claim mode).grant claim mode false).queues.Wants w)
    (holds : g ∈ ((b.recordBypass claim mode).grant claim mode false).queues.granted) :
    Minds a.lock ((b.recordBypass claim mode).grant claim mode false).lock a.queues
      ((b.recordBypass claim mode).grant claim mode false).queues w g := by
  obtain ⟨passed, lock⟩ := b.recordBypass_keeps claim mode
  generalize b.recordBypass claim mode = c at passed lock wants holds ⊢
  have heeds (k : LockId) (other : k ≠ claim.id) :
      (a.lock k).Heeds ((c.grant claim mode false).lock k) := by
    obtain ⟨n, counted⟩ := lock k
    rw [(Avoids.grant c claim mode false other).lock, counted, others k other]
    exact .of_same rfl rfl id
  rcases queues_grant c claim mode false with added | unchanged
  · rw [added, passed, queues] at wants holds
    rcases List.mem_append.mp holds with held | arrived
    · refine .of_others new heeds wants held fun e inside => ?_
      rw [added, passed, queues]
      exact Queues.entries_addGranted _ _ inside
    · obtain rfl := List.mem_singleton.mp arrived
      exact .newcomer wants new
  · rw [unchanged, passed, queues] at wants holds
    refine .of_others new heeds wants holds fun e inside => ?_
    rw [unchanged, passed, queues]
    exact inside

/-- When a lock comes to wait, whoever stands in its way is asked. -/
theorem minds_await {b c : Arbiter} {claim : Claim} {mode : Mode} (new : (a.lock claim.id).state = .new)
    (known : ∀ g ∈ a.queues.granted, g.claim.id < c.locks.size) (queues : b.queues = a.queues)
    (others : ∀ k, k ≠ claim.id → b.lock k = a.lock k)
    (waits : c = (b.modifyLock claim.id fun _ => (b.lock claim.id).enter .waiting).modifyQueues
      (·.addWaiting ⟨claim, mode⟩)) {w g : Entry}
    (wants : (c.askHolders claim mode).queues.Wants w)
    (holds : g ∈ (c.askHolders claim mode).queues.granted)
    (against : g.opposes w.claim w.mode = true) :
    Minds a.lock (c.askHolders claim mode).lock a.queues (c.askHolders claim mode).queues w g := by
  have nags : Nags c (c.askHolders claim mode) := c.nags_askHolders claim mode
  have added : c.queues = a.queues.addWaiting ⟨claim, mode⟩ := by
    rw [waits, ← queues]
    rfl
  have heeds (k : LockId) (other : k ≠ claim.id) :
      (a.lock k).Heeds ((c.askHolders claim mode).lock k) := by
    have same : c.lock k = b.lock k := waits ▸ (Avoids.modifyLock b _ other).lock
    exact others k other ▸ same ▸ nags.heeds k
  rw [nags.queues] at wants holds
  have held : g ∈ a.queues.granted := by
    rw [added] at holds
    exact holds
  have old (wanted : a.queues.Wants w) :
      Minds a.lock (c.askHolders claim mode).lock a.queues (c.askHolders claim mode).queues w g := by
    refine .of_others new heeds wanted held fun e inside => ?_
    rw [nags.queues, added]
    exact Queues.entries_addWaiting _ _ inside
  rw [added] at wants
  rcases wants with converts | waiting
  · exact old (.inl converts)
  · rcases Queues.mem_addWaiting.mp waiting with rfl | before
    · exact .heeded (.inr (asked_askHolders holds (known g held) against))
    · exact old (.inr before)

/-- What a lock that comes to the resource means for the others there. -/
theorem minds_receive {l : LockId} (new : (a.lock l).state = .new)
    (known : ∀ g ∈ a.queues.granted, g.claim.id < a.locks.size) {claim : Claim} (mine : claim.id = l)
    {mode : Mode} {b : Arbiter}
    (entered : a.modifyLock l (fun _ => (a.lock l).enter .enqueued) = b) {w g : Entry}
    (wants : (b.receive claim mode).queues.Wants w)
    (holds : g ∈ (b.receive claim mode).queues.granted) (against : g.opposes w.claim w.mode = true) :
    Minds a.lock (b.receive claim mode).lock a.queues (b.receive claim mode).queues w g := by
  subst mine
  have queues : b.queues = a.queues := entered ▸ rfl
  have size : b.locks.size = a.locks.size := entered ▸ Arena.size_modify ..
  have others (k : LockId) (other : k ≠ claim.id) : b.lock k = a.lock k := by
    rw [← entered, lock_modifyLock, if_neg fun both => other both.1.symm]
  rcases b.receive_eq claim mode with same | ⟨edge, same⟩ | same <;> rw [same] at wants holds ⊢
  · exact minds_accept new queues others wants holds
  · refine minds_await new (fun x held => ?_) queues others rfl wants holds against
    have grown : (b.modifyLock claim.id fun _ => (b.lock claim.id).enter .waiting).locks.size =
        a.locks.size := (Arena.size_modify ..).trans size
    exact grown.symm ▸ known x held
  · rw [queues] at wants holds
    refine .of_others new (fun k other => ?_) wants holds fun e inside => ?_
    · rw [others k other]
      exact .refl _
    · rw [queues]
      exact inside

/-- What a conversion that has to wait means for the locks on the resource. -/
theorem minds_pend {l : LockId} (granted : (a.lock l).state = .granted)
    (known : ∀ g ∈ a.queues.granted, g.claim.id < a.locks.size) {claim : Claim} {mode : Mode}
    {b : Arbiter} (asking : a.modifyLock l (fun _ => (a.lock l).ask mode) = b) {w g : Entry} :
    let c := (b.modifyQueues (·.addConverting ⟨claim, mode⟩)).askHolders claim mode
    c.queues.Wants w → g ∈ c.queues.granted → g.opposes w.claim w.mode = true →
      Minds a.lock c.lock a.queues c.queues w g := by
  intro c wants holds against
  set d := b.modifyQueues (·.addConverting ⟨claim, mode⟩) with pends
  have nags : Nags d c := d.nags_askHolders claim mode
  have added : d.queues = a.queues.addConverting ⟨claim, mode⟩ := by
    rw [pends, ← asking]
    rfl
  have heeds (k : LockId) : (a.lock k).Heeds (c.lock k) := by
    refine Lock.Heeds.trans ?_ (nags.heeds k)
    show (a.lock k).Heeds (b.lock k)
    rw [← asking, lock_modifyLock]
    split
    · next here =>
      rw [← here.1]
      exact .of_same rfl rfl fun leaving => by simp [granted, LockState.leaving] at leaving
    · exact .refl _
  have held : g ∈ a.queues.granted := by
    rw [nags.queues, added] at holds
    exact holds
  have old (wanted : a.queues.Wants w) : Minds a.lock c.lock a.queues c.queues w g := by
    refine .before wanted held (Heeded.mono (heeds _) (heeds _)) fun e inside => ?_
    rw [nags.queues, added]
    exact Queues.entries_addConverting _ _ inside
  rw [nags.queues, added] at wants
  rcases wants with converts | waits
  · rcases List.mem_append.mp converts with before | new
    · exact old (.inl before)
    · obtain rfl := List.mem_singleton.mp new
      have size : d.locks.size = a.locks.size := by
        rw [pends, ← asking]
        exact Arena.size_modify ..
      refine .heeded (.inr (asked_askHolders (nags.queues ▸ holds) ?_ against))
      rw [size]
      exact known g held
  · exact old (.inr waits)

/-- When a resource has been looked at again, everyone is heeded. -/
theorem heeded_reprocess (a : Arbiter) {w g : Entry} (wants : a.reprocess.queues.Wants w)
    (holds : g ∈ a.reprocess.queues.granted) (known : g.claim.id < a.reprocess.locks.size)
    (against : g.opposes w.claim w.mode = true) : Heeded a.reprocess.lock w g := by
  cases stays : (a.reprocess.lock w.claim.id).state.leaving with
  | true => exact .inl stays
  | false => exact .inr (asked_reprocess a wants holds known against stays)

end Arbiter
end LockManager
