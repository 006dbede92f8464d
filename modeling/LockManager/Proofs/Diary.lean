import LockManager.Proofs.Arbiter.Summons

set_option autoImplicit false

/-!
What is noted of a lock in the course of a run, and what its record recalls of that. Between two grants a
lock is asked to give way once at most, and its owner is reported once at most: never too early, and in
time unless the lock is granted something or canceled before.
-/

namespace LockManager

inductive Deed where
  /-- The lock holds a mode that it did not hold before. -/
  | granted
  /-- A request to give way has been queued on it. -/
  | asked (sent : Nat)
  /-- Its cancel has begun. -/
  | canceled
  /-- There has been a look at who has not given way in time. -/
  | checked (now : Nat)
  /-- Its owner has been reported for not giving way. -/
  | reported (now waited : Nat)
  deriving DecidableEq, Repr

namespace Deed

def asks : Deed → Bool
  | asked _ => true
  | _ => false

def reports : Deed → Bool
  | reported _ _ => true
  | _ => false

end Deed

/-- What is noted when a lock has become another at time `now`. Whatever it is granted comes before it is
asked to give way: a request tells the owner which mode is held by then. -/
def Lock.deeds (x : Lock) (now : Nat) (x' : Lock) : List Deed :=
  (if x'.grantedMode ≠ none ∧ x'.grantedMode ≠ x.grantedMode then [.granted] else []) ++
    (requests (x'.pending.drop x.pending.length)).map (fun _ => .asked now) ++
      if x.state.leaving = false ∧ x'.state.leaving = true then [.canceled] else []

/-! ### Orderly diaries -/

/-- Between two grants at most one deed is of this kind. -/
def OncePerGrant (kind : Deed → Bool) (deeds : List Deed) : Prop :=
  ∀ before between after, deeds = before ++ between ++ after → .granted ∉ between →
    between.countP kind ≤ 1

/-- After the deed `d` come those in `since`, and no grant is among them. -/
def Since (deeds : List Deed) (d : Deed) (since : List Deed) : Prop :=
  (∃ before, deeds = before ++ d :: since) ∧ .granted ∉ since

/-- The lock was asked to give way at time `sent`, and has been neither granted anything nor canceled
since. -/
def Unheeded (deeds : List Deed) (sent : Nat) (since : List Deed) : Prop :=
  Since deeds (.asked sent) since ∧ .canceled ∉ since

structure Orderly (timeout : Nat) (deeds : List Deed) : Prop where
  asked_once : OncePerGrant Deed.asks deeds
  reported_once : OncePerGrant Deed.reports deeds
  /-- A report tells how long the lock has been asked to give way by then, and that is long enough. -/
  due : ∀ before now waited after, deeds = before ++ .reported now waited :: after →
    ∃ sent since, Unheeded before sent since ∧ sent + timeout ≤ now ∧ waited = now - sent
  /-- The first look at or after the deadline leads to a report. -/
  made : ∀ before now after sent since, deeds = before ++ .checked now :: after →
    Unheeded before sent since → sent + timeout ≤ now →
      (∀ t, .checked t ∈ since → t < sent + timeout) →
        ∃ rest, after = .reported now (now - sent) :: rest

variable {deeds more since before after : List Deed} {d e : Deed} {sent timeout now : Nat}

theorem eq_append_of_append (same : deeds ++ more = before ++ d :: after) :
    (∃ rest, deeds = before ++ d :: rest ∧ after = rest ++ more) ∨
      ∃ middle, before = deeds ++ middle ∧ more = middle ++ d :: after := by
  rcases List.append_eq_append_iff.mp same with ⟨middle, early, late⟩ | ⟨middle, early, late⟩
  · exact .inr ⟨middle, early, late⟩
  · cases middle with
    | nil => exact .inr ⟨[], by simpa using early.symm, late.symm⟩
    | cons x rest =>
      obtain ⟨rfl, rfl⟩ := List.cons.inj late
      exact .inl ⟨rest, early, rfl⟩

theorem eq_of_singleton {middle : List Deed} (same : [e] = middle ++ d :: after) :
    e = d ∧ middle = [] ∧ after = [] := by
  cases middle with
  | nil =>
    obtain ⟨rfl, none⟩ := List.cons.inj same
    exact ⟨rfl, rfl, none.symm⟩
  | cons x rest => simp at same

/-- What comes last is either the deed itself or one of those after it. -/
theorem Since.of_concat (later : Since (deeds ++ [e]) d since) :
    d = e ∧ since = [] ∨ ∃ rest, Since deeds d rest ∧ since = rest ++ [e] ∧ e ≠ .granted := by
  obtain ⟨⟨before, same⟩, none⟩ := later
  rcases eq_append_of_append same with ⟨rest, early, rfl⟩ | ⟨middle, -, late⟩
  · rw [List.mem_append, not_or, List.mem_singleton] at none
    exact .inr ⟨rest, ⟨⟨before, early⟩, none.1⟩, rfl, Ne.symm none.2⟩
  · obtain ⟨rfl, -, none⟩ := eq_of_singleton late
    exact .inl ⟨rfl, none⟩

theorem Since.last (deeds : List Deed) (d : Deed) : Since (deeds ++ [d]) d [] :=
  ⟨⟨deeds, rfl⟩, List.not_mem_nil⟩

theorem Since.concat (now : Since deeds d since) (other : e ≠ .granted) :
    Since (deeds ++ [e]) d (since ++ [e]) := by
  obtain ⟨⟨before, same⟩, none⟩ := now
  refine ⟨⟨before, by simp [same]⟩, ?_⟩
  rw [List.mem_append, not_or, List.mem_singleton]
  exact ⟨none, Ne.symm other⟩

theorem Unheeded.of_concat (unheeded : Unheeded (deeds ++ [e]) sent since) :
    e = .asked sent ∧ since = [] ∨ ∃ rest, Unheeded deeds sent rest ∧ since = rest ++ [e] ∧
      e ≠ .granted ∧ e ≠ .canceled := by
  obtain ⟨later, none⟩ := unheeded
  rcases later.of_concat with ⟨rfl, rfl⟩ | ⟨rest, early, rfl, other⟩
  · exact .inl ⟨rfl, rfl⟩
  · rw [List.mem_append, not_or, List.mem_singleton] at none
    exact .inr ⟨rest, ⟨early, none.1⟩, rfl, other, Ne.symm none.2⟩

theorem Unheeded.concat (unheeded : Unheeded deeds sent since) (other : e ≠ .granted)
    (stays : e ≠ .canceled) : Unheeded (deeds ++ [e]) sent (since ++ [e]) := by
  refine ⟨unheeded.1.concat other, ?_⟩
  rw [List.mem_append, not_or, List.mem_singleton]
  exact ⟨unheeded.2, Ne.symm stays⟩

/-- One more deed. If it is of the kind, there has been none since the last grant. -/
theorem OncePerGrant.concat {kind : Deed → Bool} (once : OncePerGrant kind deeds)
    (first : kind e = true → ∀ d since, Since deeds d since → kind d = false) :
    OncePerGrant kind (deeds ++ [e]) := by
  intro before between after same none
  rcases List.eq_nil_or_concat after with rfl | ⟨after, x, rfl⟩
  · rcases List.eq_nil_or_concat between with rfl | ⟨between, x, rfl⟩
    · exact Nat.zero_le _
    · rw [List.append_nil, List.concat_eq_append, ← List.append_assoc] at same
      obtain ⟨rfl, last⟩ := List.append_inj' same rfl
      obtain rfl := List.singleton_inj.mp last
      rw [List.concat_eq_append, List.mem_append, not_or] at none
      rw [List.concat_eq_append, List.countP_append, List.countP_singleton]
      split
      · next another =>
        have nothing : between.countP kind = 0 := by
          refine List.countP_eq_zero.mpr fun d inside => ?_
          obtain ⟨early, late, rfl⟩ := List.append_of_mem inside
          have since : Since (before ++ (early ++ d :: late)) d late := by
            refine ⟨⟨before ++ early, (List.append_assoc ..).symm⟩, fun granted => none.1 ?_⟩
            exact List.mem_append_right _ (List.mem_cons_of_mem _ granted)
          rw [first another d late since]
          exact Bool.false_ne_true
        rw [nothing]
      · exact once before between [] (List.append_nil _).symm none.1
  · rw [List.concat_eq_append, ← List.append_assoc] at same
    obtain ⟨rfl, -⟩ := List.append_inj' same rfl
    exact once before between after rfl none

namespace Orderly

theorem nil (timeout : Nat) : Orderly timeout [] := by
  refine ⟨fun before between after same _ => ?_, fun before between after same _ => ?_,
    fun before now waited after same => ?_, fun before now after sent since same => ?_⟩
  · simp_all
  · simp_all
  · simp at same
  · simp at same

/-- One more deed, but a look that leads to a report. -/
theorem concat (orderly : Orderly timeout deeds)
    (asks : e.asks = true → ∀ d since, Since deeds d since → d.asks = false)
    (silent : e.reports = false)
    (unpressed : ∀ now, e = .checked now → ∀ sent since, Unheeded deeds sent since →
      sent + timeout ≤ now → ∃ t, .checked t ∈ since ∧ sent + timeout ≤ t) :
    Orderly timeout (deeds ++ [e]) := by
  refine ⟨orderly.asked_once.concat asks, orderly.reported_once.concat fun reports => ?_,
    fun before now waited after same => ?_,
    fun before now after sent since same unheeded deadline unseen => ?_⟩
  · rw [silent] at reports
    cases reports
  · rcases eq_append_of_append same with ⟨rest, early, -⟩ | ⟨middle, -, late⟩
    · exact orderly.due before now waited rest early
    · obtain ⟨rfl, -, -⟩ := eq_of_singleton late
      cases silent
  · rcases eq_append_of_append same with ⟨rest, early, rfl⟩ | ⟨middle, early, late⟩
    · obtain ⟨others, rfl⟩ := orderly.made before now rest sent since early unheeded deadline unseen
      exact ⟨others ++ [e], rfl⟩
    · -- the look is the last deed, and nobody was to be reported
      obtain ⟨looks, rfl, -⟩ := eq_of_singleton late
      rw [List.append_nil] at early
      obtain ⟨t, checked, late⟩ := unpressed now looks sent since (early ▸ unheeded) deadline
      exact absurd (unseen t checked) (Nat.not_lt.mpr late)

/-- A look, and the report of whoever has been asked long enough ago. -/
theorem report (orderly : Orderly timeout deeds)
    (first : ∀ d since, Since deeds d since → d.reports = false) (unheeded : Unheeded deeds sent since)
    (late : sent + timeout ≤ now)
    (only : ∀ sent' since', Unheeded deeds sent' since' → sent' = sent) :
    Orderly timeout (deeds ++ [.checked now] ++ [.reported now (now - sent)]) := by
  have asked : OncePerGrant Deed.asks (deeds ++ [.checked now]) := orderly.asked_once.concat nofun
  have reported : OncePerGrant Deed.reports (deeds ++ [.checked now]) :=
    orderly.reported_once.concat nofun
  refine ⟨asked.concat nofun, reported.concat fun _ d since before => ?_,
    fun before n w after same => ?_, fun before n after sent' since' same pressed deadline unseen => ?_⟩
  · rcases before.of_concat with ⟨rfl, -⟩ | ⟨rest, early, -, -⟩
    · rfl
    · exact first d rest early
  · rcases eq_append_of_append same with ⟨rest, early, -⟩ | ⟨middle, early, last⟩
    · rcases eq_append_of_append early with ⟨rest, early, -⟩ | ⟨middle, -, last⟩
      · exact orderly.due before n w rest early
      · cases (eq_of_singleton last).1
    · obtain ⟨this, rfl, -⟩ := eq_of_singleton last
      obtain ⟨rfl, rfl⟩ := Deed.reported.inj this
      rw [early, List.append_nil]
      exact ⟨sent, _, unheeded.concat nofun nofun, late, rfl⟩
  · rcases eq_append_of_append same with ⟨rest, early, rfl⟩ | ⟨middle, -, last⟩
    · rcases eq_append_of_append early with ⟨rest, earlier, rfl⟩ | ⟨middle, earlier, last⟩
      · obtain ⟨others, rfl⟩ :=
          orderly.made before n rest sent' since' earlier pressed deadline unseen
        exact ⟨_, rfl⟩
      · obtain ⟨this, rfl, rfl⟩ := eq_of_singleton last
        obtain rfl := Deed.checked.inj this
        rw [List.append_nil] at earlier
        obtain rfl := only sent' since' (earlier ▸ pressed)
        exact ⟨[], rfl⟩
    · cases (eq_of_singleton last).1

end Orderly

/-! ### What a record recalls -/

/-- At time `now` the record `u` of a lock recalls what matters of its diary. -/
structure Recalls (timeout now : Nat) (deeds : List Deed) (u : Summons) (leaving : Bool) : Prop where
  unasked : u.sent = false → ∀ d since, Since deeds d since → d.asks = false
  unreported : u.reported = false → ∀ d since, Since deeds d since → d.reports = false
  asked : u.reported = true → u.sent = true
  sent : ∀ sent, u.sentAt = some sent →
    u.sent = true ∧ sent ≤ now ∧ (leaving = false → ∃ since, Unheeded deeds sent since)
  pressing : ∀ sent since, Unheeded deeds sent since →
    leaving = false ∧ u.sentAt = some sent ∧
      (u.reported = true → ∃ t, .checked t ∈ since ∧ sent + timeout ≤ t)

namespace Recalls

variable {u : Summons} {leaving : Bool}

theorem nil (timeout now : Nat) : Recalls timeout now [] {} false := by
  have nothing {d : Deed} {since : List Deed} : ¬Since [] d since := by
    rintro ⟨⟨before, same⟩, -⟩
    simp at same
  exact ⟨fun _ d since now => absurd now nothing, fun _ d since now => absurd now nothing, nofun,
    nofun, fun sent since unheeded => absurd unheeded.1 nothing⟩

theorem pass (recalls : Recalls timeout now deeds u leaving) {now' : Nat} (later : now ≤ now') :
    Recalls timeout now' deeds u leaving := by
  refine ⟨recalls.unasked, recalls.unreported, recalls.asked, fun sent same => ?_, recalls.pressing⟩
  obtain ⟨asked, early, since⟩ := recalls.sent sent same
  exact ⟨asked, early.trans later, since⟩

/-- A grant wipes the record clean. -/
theorem granted : Recalls timeout now (deeds ++ [.granted]) {} false := by
  have only {d : Deed} {since : List Deed} (now : Since (deeds ++ [.granted]) d since) :
      d = .granted := by
    rcases now.of_concat with ⟨same, -⟩ | ⟨-, -, -, other⟩
    · exact same
    · exact absurd rfl other
  exact ⟨fun _ d since now => only now ▸ rfl, fun _ d since now => only now ▸ rfl, nofun, nofun,
    fun sent since unheeded => nomatch only unheeded.1⟩

/-- A deed that is neither a request nor a report is no news to the record. -/
theorem unasked_concat (recalls : Recalls timeout now deeds u leaving) (other : e.asks = false)
    (fresh : u.sent = false) (d : Deed) (since : List Deed) (before : Since (deeds ++ [e]) d since) :
    d.asks = false := by
  rcases before.of_concat with ⟨rfl, -⟩ | ⟨rest, early, -, -⟩
  · exact other
  · exact recalls.unasked fresh d rest early

theorem unreported_concat (recalls : Recalls timeout now deeds u leaving) (other : e.reports = false)
    (silent : u.reported = false) (d : Deed) (since : List Deed)
    (before : Since (deeds ++ [e]) d since) : d.reports = false := by
  rcases before.of_concat with ⟨rfl, -⟩ | ⟨rest, early, -, -⟩
  · exact other
  · exact recalls.unreported silent d rest early

theorem ask (recalls : Recalls timeout now deeds u false) (fresh : u.sent = false) :
    Recalls timeout now (deeds ++ [.asked now]) { u with sent := true, sentAt := some now } false := by
  refine ⟨nofun, recalls.unreported_concat rfl, fun _ => rfl, fun sent same => ?_,
    fun sent since unheeded => ?_⟩
  · obtain rfl := Option.some.inj same
    exact ⟨rfl, Nat.le_refl _, fun _ => ⟨[], .last deeds _, List.not_mem_nil⟩⟩
  · rcases unheeded.of_concat with ⟨same, -⟩ | ⟨rest, early, -⟩
    · obtain rfl := Deed.asked.inj same
      refine ⟨rfl, rfl, fun reported => ?_⟩
      rw [recalls.asked reported] at fresh
      cases fresh
    · cases recalls.unasked fresh _ rest early.1

theorem cancel (recalls : Recalls timeout now deeds u false) :
    Recalls timeout now (deeds ++ [.canceled]) u true := by
  refine ⟨recalls.unasked_concat rfl, recalls.unreported_concat rfl, recalls.asked,
    fun sent same => ?_, fun sent since unheeded => ?_⟩
  · obtain ⟨asked, early, -⟩ := recalls.sent sent same
    exact ⟨asked, early, nofun⟩
  · rcases unheeded.of_concat with ⟨same, -⟩ | ⟨-, -, -, -, other⟩
    · cases same
    · exact absurd rfl other

/-- A lock on its way out may forget when it was asked. -/
theorem forget (recalls : Recalls timeout now deeds u true) :
    Recalls timeout now deeds { u with sentAt := none } true :=
  ⟨recalls.unasked, recalls.unreported, recalls.asked, nofun,
    fun sent since unheeded => nomatch (recalls.pressing sent since unheeded).1⟩

theorem look (recalls : Recalls timeout now deeds u leaving) :
    Recalls timeout now (deeds ++ [.checked now]) u leaving := by
  refine ⟨recalls.unasked_concat rfl, recalls.unreported_concat rfl, recalls.asked,
    fun sent same => ?_, fun sent since unheeded => ?_⟩
  · obtain ⟨asked, early, still⟩ := recalls.sent sent same
    refine ⟨asked, early, fun stays => ?_⟩
    obtain ⟨since, unheeded⟩ := still stays
    exact ⟨_, unheeded.concat nofun nofun⟩
  · rcases unheeded.of_concat with ⟨same, -⟩ | ⟨rest, early, rfl, -⟩
    · cases same
    · obtain ⟨stays, same, seen⟩ := recalls.pressing sent rest early
      refine ⟨stays, same, fun reported => ?_⟩
      obtain ⟨t, checked, late⟩ := seen reported
      exact ⟨t, List.mem_append_left _ checked, late⟩

/-- Whoever has been asked for long enough is reported at a look, and that is recorded. -/
theorem report (recalls : Recalls timeout now deeds u leaving) {waited : Nat}
    (same : u.sentAt = some sent) (deadline : sent + timeout ≤ now) :
    Recalls timeout now (deeds ++ [.checked now] ++ [.reported now waited])
      { u with reported := true } leaving := by
  have looked := recalls.look
  refine ⟨looked.unasked_concat rfl, nofun, fun _ => (recalls.sent sent same).1,
    fun sent' same' => ?_, fun sent' since unheeded => ?_⟩
  · obtain ⟨asked, early, still⟩ := looked.sent sent' same'
    refine ⟨asked, early, fun stays => ?_⟩
    obtain ⟨since, unheeded⟩ := still stays
    exact ⟨_, unheeded.concat nofun nofun⟩
  · rcases unheeded.of_concat with ⟨other, -⟩ | ⟨rest, early, rfl, -⟩
    · cases other
    · obtain ⟨stays, same', -⟩ := looked.pressing sent' rest early
      obtain rfl := Option.some.inj (same.symm.trans same')
      refine ⟨stays, same', fun _ => ⟨now, ?_, deadline⟩⟩
      rcases early.of_concat with ⟨other, -⟩ | ⟨rest, -, rfl, -⟩
      · cases other
      · simp

end Recalls

/-- The diary is in order, and the record recalls what matters of it. -/
structure Kept (timeout now : Nat) (deeds : List Deed) (u : Summons) (leaving : Bool) : Prop where
  orderly : Orderly timeout deeds
  recalls : Recalls timeout now deeds u leaving

namespace Kept

variable {u : Summons} {leaving : Bool}

theorem granted (kept : Kept timeout now deeds u leaving) :
    Kept timeout now (deeds ++ [.granted]) {} false :=
  ⟨kept.orderly.concat nofun rfl nofun, .granted⟩

theorem ask (kept : Kept timeout now deeds u false) (fresh : u.sent = false) :
    Kept timeout now (deeds ++ [.asked now]) { u with sent := true, sentAt := some now } false :=
  ⟨kept.orderly.concat (fun _ => kept.recalls.unasked fresh) rfl nofun, kept.recalls.ask fresh⟩

theorem cancel (kept : Kept timeout now deeds u false) :
    Kept timeout now (deeds ++ [.canceled]) u true :=
  ⟨kept.orderly.concat nofun rfl nofun, kept.recalls.cancel⟩

/-- A look leads to no report if nobody stays that has been asked for long enough, or it has been reported
by then. -/
theorem look (kept : Kept timeout now deeds u leaving)
    (undue : leaving = false → u.reported = false → ∀ sent, u.sentAt = some sent → now < sent + timeout) :
    Kept timeout now (deeds ++ [.checked now]) u leaving := by
  refine ⟨kept.orderly.concat nofun rfl fun now' same sent since unheeded deadline => ?_,
    kept.recalls.look⟩
  obtain rfl := Deed.checked.inj same
  obtain ⟨stays, recorded, seen⟩ := kept.recalls.pressing sent since unheeded
  cases reported : u.reported with
  | true => exact seen reported
  | false => exact absurd (undue stays reported sent recorded) (Nat.not_lt.mpr deadline)

theorem report (kept : Kept timeout now deeds u false) (unreported : u.reported = false)
    (recorded : u.sentAt = some sent) (deadline : sent + timeout ≤ now) :
    Kept timeout now (deeds ++ [.checked now] ++ [.reported now (now - sent)])
      { u with reported := true } false := by
  obtain ⟨since, unheeded⟩ := (kept.recalls.sent sent recorded).2.2 rfl
  refine ⟨kept.orderly.report (kept.recalls.unreported unreported) unheeded deadline ?_,
    kept.recalls.report recorded deadline⟩
  intro sent' since' pressed
  exact (Option.some.inj (recorded.symm.trans (kept.recalls.pressing sent' since' pressed).2.1)).symm

/-- Whoever stays, has been asked for long enough and has not been reported is reported. -/
theorem check (kept : Kept timeout now deeds u leaving) {due : Option Nat}
    (spec : ∀ waited, due = some waited ↔ leaving = false ∧ u.reported = false ∧
      ∃ sent, u.sentAt = some sent ∧ timeout ≤ now - sent ∧ waited = now - sent) :
    Kept timeout now (deeds ++ .checked now :: due.toList.map (.reported now))
      { u with reported := u.reported || due.isSome } leaving := by
  cases due with
  | none =>
    rw [Option.isSome_none, Bool.or_false]
    refine kept.look fun stays unreported sent recorded => ?_
    by_contra late
    cases (spec (now - sent)).mpr ⟨stays, unreported, sent, recorded, by omega, rfl⟩
  | some waited =>
    obtain ⟨rfl, unreported, sent, recorded, enough, rfl⟩ := (spec waited).mp rfl
    have early := (kept.recalls.sent sent recorded).2.1
    rw [Option.isSome_some, Bool.or_true, Option.toList_some, List.map_singleton,
      ← List.singleton_append, ← List.append_assoc]
    exact kept.report unreported recorded (by omega)

end Kept
end LockManager
