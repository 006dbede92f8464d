import LockManager.Proofs.Arbiter.Advances
import LockManager.Proofs.Namespace.Departing
import LockManager.Proofs.Namespace.Refusals

set_option autoImplicit false

/-!
Every attempt to take an edge of the life cycle in the course of a stage. None is refused but that of a lock
to be let in that has been let in before, and whoever asked for that is told so.
-/

namespace LockManager

namespace Namespace

def submitAdvances (ns : Namespace) (l : LockId) (r : ResourceId) : List Advance :=
  if ns.stopping || (ns.lock l).state.leaving then []
  else
    ⟨l, ns.lock l, .enqueued⟩ ::
      match (ns.lock l).advance? .enqueued with
      | some entered =>
        ((ns.arbiter r).modifyLock l fun _ => entered).receiveAdvances (ns.lock l).claim
          (ns.lock l).requestedMode
      | none => []

/-- Only a granted lock attempts to convert, and not to the mode that it has. -/
def changeModeAdvances (ns : Namespace) (l : LockId) (mode : Mode) (r : ResourceId) : List Advance :=
  match (ns.lock l).grantedMode, (ns.lock l).advance? .converting with
  | some held, some _ =>
    if held = mode then []
    else
      ⟨l, ns.lock l, .converting⟩ ::
        if (ns.asking l mode r).opposed (ns.lock l).claim mode then []
        else
          (ns.asking l mode r).granting (ns.lock l).claim.id ::
            match (ns.asking l mode r).convert? (ns.lock l).claim mode false with
            | some a => a.reprocessAdvances
            | none => []
  | _, _ => []

def markAdvances (ns : Namespace) (l : LockId) : List Advance :=
  if (ns.lock l).state.leaving then [] else [⟨l, ns.lock l, .canceling⟩]

def leaveAdvances (ns : Namespace) (l : LockId) (r : ResourceId) : List Advance :=
  ⟨l, ns.lock l, .canceled⟩ :: (ns.departing l r).reprocessAdvances

end Namespace

/-- The attempts made when the stage is carried out with the queues of `r` held. -/
def Stage.advances (ns : Namespace) (r : ResourceId) : Stage → List Advance
  | .submit l _ => ns.submitAdvances l r
  | .changeMode l mode => ns.changeModeAdvances l mode r
  | .mark l _ => ns.markAdvances l
  | .leave l => ns.leaveAdvances l r
  | _ => []

namespace Namespace

def stations (ns : Namespace) : Stations := ⟨ns.locks.size, fun l => (ns.lock l).station⟩

variable {ns ns' : Namespace} {l : LockId} {r : ResourceId}

theorem Alike.stations (same : Alike ns ns') : ns'.stations = ns.stations :=
  congrArg Ledger.stations same.ledger

theorem stations_conclude (ns : Namespace) (r : ResourceId) (a : Arbiter)
    (others : ResourceId → Queues) : (ns.conclude r a).stations = (a.ledger r others).stations :=
  (alike_dispatch _ a.touched).stations

theorem stations_modifyLock (ns : Namespace) (l : LockId) {f : Lock → Lock}
    (same : ∀ x, (f x).station = x.station) : (ns.modifyLock l f).stations = ns.stations := by
  have each : ∀ k, ((ns.modifyLock l f).lock k).station = (ns.lock k).station := by
    intro k
    unfold lock modifyLock
    rw [Arena.get_modify]
    split
    · exact same _
    · rfl
  simp only [stations, each]
  simp only [modifyLock, Arena.size_modify]

/-- A lock that is there takes an edge. -/
theorem leads_set {x : Lock} {s : LockState} (known : l < ns.locks.size)
    (edge : (ns.lock l).state.allows s = true)
    (entered : x.station = ((ns.lock l).enter s).station) :
    ns.stations.Leads [⟨l, ns.lock l, s⟩] (ns.ledger.set l x).stations := by
  rw [Ledger.set_eq_seat]
  have current : (ns.ledger.lock l).station = (ns.lock l).station := rfl
  exact Ledger.leads_seat _ known current edge entered

/-! ### Coming -/

/-- A new lock is let in, and takes one edge more. -/
theorem Sound.leads_enqueue (sound : ns.Sound) (known : l < ns.locks.size)
    (bound : (ns.lock l).resource = r) (new : (ns.lock l).state = .new) {a : Arbiter}
    (entered : (ns.arbiter r).modifyLock l (fun _ => (ns.lock l).enter .enqueued) = a) :
    ns.stations.Leads
      (⟨l, ns.lock l, .enqueued⟩ :: a.receiveAdvances (ns.lock l).claim (ns.lock l).requestedMode)
      (ns.conclude r (a.receive (ns.lock l).claim (ns.lock l).requestedMode)).stations := by
  have start := ledger_arbiter_entered known .enqueued r
  have coherent := sound.ledger.coherent.enqueue known new
  have self : ((ns.arbiter r).modifyLock l fun _ => (ns.lock l).enter .enqueued).lock l =
      (ns.lock l).enter .enqueued := Arena.get_modify_self _ _ known
  have there : l < ((ns.arbiter r).modifyLock l fun _ => (ns.lock l).enter .enqueued).locks.size :=
    Nat.lt_of_lt_of_eq known (Arena.size_modify ..).symm
  rw [← start] at coherent
  rw [entered] at start coherent self there
  have first : ns.stations.Leads [⟨l, ns.lock l, .enqueued⟩]
      (a.ledger r ns.ledger.queues).stations := by
    rw [start]
    exact leads_set known (LockState.allows_enqueued_iff.mpr new) rfl
  have next := Arbiter.leads_receive coherent there (by rw [self]; exact bound) (by rw [self]; rfl)
  rw [self] at next
  rw [stations_conclude ns r _ ns.ledger.queues]
  exact first.append next

theorem Sound.leads_submit (sound : ns.Sound) (known : l < ns.locks.size)
    (bound : (ns.lock l).resource = r) : ns.stations.Leads (ns.submitAdvances l r)
      (match ns.submit l r with | .ok p => p.2 | .error _ => ns).stations := by
  unfold submitAdvances
  cases running : ns.stopping with
  | true =>
    have refused : ns.submit l r = .error (.shuttingDown ns.config.name) := by
      unfold Namespace.submit ensureRunning
      rw [running]
      rfl
    rw [refused]
    exact .nil _
  | false =>
    cases gone : (ns.lock l).state.leaving with
    | true =>
      have kept : ns.submit l r = .ok (ns.reply l, ns) := by
        unfold Namespace.submit ensureRunning
        simp only [running, gone]
        rfl
      rw [kept]
      exact .nil _
    | false =>
      rw [Bool.or_self, if_neg Bool.false_ne_true]
      by_cases new : (ns.lock l).state = .new
      · have edge : (ns.lock l).advance? .enqueued = some ((ns.lock l).enter .enqueued) :=
          Lock.advance?_of_allows (LockState.allows_enqueued_iff.mpr new)
        rw [edge, submit_of_new new running r rfl]
        exact sound.leads_enqueue known bound new rfl
      · have none : (ns.lock l).advance? .enqueued = none :=
          Lock.advance?_of_not_allows (mt LockState.allows_enqueued_iff.mp new)
        rw [none, submit_refused running new gone]
        -- the one attempt that may be refused
        refine .single ⟨known, rfl, fun other => absurd rfl other⟩ ?_
        have after : Advance.after ⟨l, ns.lock l, .enqueued⟩ = ns.lock l := by
          rw [Advance.after, none, Option.getD_none]
        rw [Stations.advance, after]
        exact congrArg (Stations.mk _) (Function.update_eq_self l _).symm

/-! ### Changing mode -/

/-- A lock that changes its mode at once takes two edges, and the resource is looked at again. -/
theorem Sound.leads_switch (sound : ns.Sound) (known : l < ns.locks.size) {mode : Mode} {a : Arbiter}
    (granted : (ns.lock l).state = .granted)
    (free : (ns.asking l mode (ns.lock l).resource).opposed (ns.lock l).claim mode = false)
    (converted : (ns.asking l mode (ns.lock l).resource).convert? (ns.lock l).claim mode false =
      some a) :
    ((ns.asking l mode (ns.lock l).resource).ledger (ns.lock l).resource
        ns.ledger.queues).stations.Leads
      ((ns.asking l mode (ns.lock l).resource).granting (ns.lock l).claim.id :: a.reprocessAdvances)
      (ns.conclude (ns.lock l).resource a.reprocess).stations := by
  have named : (ns.lock l).claim.id = l := sound.ledger.coherent.named l known
  have after := ledger_switching sound known converted
  have coherent := sound.ledger.coherent.switch known granted free
  have second : ((ns.asking l mode (ns.lock l).resource).ledger (ns.lock l).resource
      ns.ledger.queues).stations.Leads
        [(ns.asking l mode (ns.lock l).resource).granting (ns.lock l).claim.id]
        (a.ledger (ns.lock l).resource ns.ledger.queues).stations := by
    have self := ns.ledger.lock_set_self l ((ns.ledger.lock l).ask mode)
    have now : ((ns.asking l mode (ns.lock l).resource).lock l).station =
        ((ns.lock l).ask mode).station := congrArg Lock.station (lock_asking known mode _)
    have entered : (ns.ledger.set l ((ns.ledger.lock l).ask mode)).seat l
        ((((ns.ledger.lock l).ask mode).enter .granted).hold mode)
        ((ns.ledger.home l).setGrantedMode l mode) = ns.ledger.switch l mode :=
      Ledger.seat_set _ _ rfl
    rw [after, ledger_asking known, named, ← entered]
    refine Ledger.leads_seat (l := l) _ known ?_ ?_ ?_ <;> rw [self]
    · exact now.symm
    · rfl
    · rfl
  rw [stations_conclude ns _ _ ns.ledger.queues]
  exact second.append (Arbiter.leads_reprocess (after.symm ▸ coherent))

theorem Sound.leads_changeMode (sound : ns.Sound) (known : l < ns.locks.size) (mode : Mode)
    (bound : (ns.lock l).resource = r) : ns.stations.Leads (ns.changeModeAdvances l mode r)
      (match ns.changeMode l mode r with | .ok p => p.2 | .error _ => ns).stations := by
  subst bound
  have named : (ns.lock l).claim.id = l := sound.ledger.coherent.named l known
  by_cases granted : (ns.lock l).state = .granted
  · have own : Seat _ (ns.lock l).state _ _ _ := sound.ledger.coherent.seated l known
    rw [granted] at own
    have held : (ns.lock l).grantedMode = some (ns.lock l).requestedMode := own.of_state_granted.1
    have standing : (ns.lock l).standing =
        ⟨.granted, (ns.lock l).requestedMode, some (ns.lock l).requestedMode⟩ :=
      congrArg₂ (Standing.mk · _ ·) granted held
    have allowed : (ns.lock l).state.allows .converting = true :=
      LockState.allows_converting_iff.mpr granted
    have first : ns.stations.Leads [⟨l, ns.lock l, .converting⟩]
        ((ns.asking l mode (ns.lock l).resource).ledger (ns.lock l).resource
          ns.ledger.queues).stations := by
      rw [ledger_asking known]
      exact leads_set (x := (ns.ledger.lock l).ask mode) known allowed rfl
    simp only [changeModeAdvances, held, Lock.advance?_of_allows allowed]
    by_cases same : (ns.lock l).requestedMode = mode
    · rw [if_pos same, Resting.changeMode_same (same ▸ standing)]
      exact .nil _
    · rw [if_neg same, Resting.changeMode_other standing same]
      cases against : (ns.asking l mode (ns.lock l).resource).opposed (ns.lock l).claim mode with
      | true =>
        rw [if_pos rfl, if_pos rfl]
        dsimp only
        rw [stations_conclude ns _ _ ns.ledger.queues, Arbiter.ledger_askHolders]
        exact first
      | false =>
        obtain ⟨b, entered⟩ := Arbiter.exists_enter (a := ns.asking l mode (ns.lock l).resource)
          (l := (ns.lock l).claim.id) mode false
          (by rw [named, lock_asking known]; rfl)
        have converted : (ns.asking l mode (ns.lock l).resource).convert? (ns.lock l).claim mode false =
            some _ := congrArg (Option.map _) entered
        rw [if_neg Bool.false_ne_true, if_neg Bool.false_ne_true, converted]
        exact first.append (sound.leads_switch known granted against converted)
  · have none : (ns.lock l).advance? .converting = none :=
      Lock.advance?_of_not_allows (mt LockState.allows_converting_iff.mp granted)
    have nothing : ns.changeModeAdvances l mode (ns.lock l).resource = [] := by
      unfold changeModeAdvances
      rw [none]
      cases (ns.lock l).grantedMode <;> rfl
    rw [changeMode_refused granted, nothing]
    exact .nil _

/-! ### Going -/

theorem leads_mark (known : l < ns.locks.size) :
    ns.stations.Leads (ns.markAdvances l) ((ns.mark? l).getD ns).stations := by
  unfold markAdvances
  cases gone : (ns.lock l).state.leaving with
  | true =>
    have refused : ¬(ns.lock l).state.allows .canceling = true := by
      rw [LockState.allows_canceling_iff, gone]
      exact Bool.noConfusion
    rw [mark?, Lock.advance?_of_not_allows refused, Option.map_none]
    exact .nil _
  | false =>
    have allowed : (ns.lock l).state.allows .canceling = true :=
      LockState.allows_canceling_iff.mpr gone
    have marked : ns.mark? l = some (ns.modifyLock l fun _ => (ns.lock l).enter .canceling) := by
      rw [mark?, Lock.advance?_of_allows allowed, Option.map_some]
    rw [marked, if_neg Bool.false_ne_true]
    have turns := ns.becomes_modifyLock known fun _ => (ns.lock l).enter .canceling
    have same : (ns.modifyLock l fun _ => (ns.lock l).enter .canceling).stations =
        (ns.ledger.set l ((ns.lock l).enter .canceling).outline).stations :=
      congrArg Ledger.stations turns.ledger
    rw [Option.getD_some, same]
    exact leads_set known allowed rfl

theorem stations_retire (ns : Namespace) (l : LockId) : (ns.retire l).stations = ns.stations := by
  have each : ∀ k, ((ns.retire l).lock k).station = (ns.lock k).station := by
    intro k
    rw [lock_retire]
    split <;> rfl
  simp only [stations, each, size_retire]

theorem stations_move (ns : Namespace) (l : LockId) (target : ResourceId) :
    (ns.move l target).2.2.stations = ns.stations := by
  unfold move
  dsimp only
  split
  · exact ns.stations_modifyLock l fun _ => rfl
  · rfl

theorem Sound.leads_leave (sound : ns.Sound) (known : l < ns.locks.size)
    (bound : (ns.lock l).resource = r) (canceling : (ns.lock l).state = .canceling) :
    ns.stations.Leads (ns.leaveAdvances l r) (ns.leave l r).stations := by
  subst bound
  have departing : (ns.departing l (ns.lock l).resource).ledger (ns.lock l).resource
      ns.ledger.queues = ns.ledger.leave l := ledger_departing known rfl canceling
  have first : ns.stations.Leads [⟨l, ns.lock l, .canceled⟩]
      ((ns.departing l (ns.lock l).resource).ledger (ns.lock l).resource
        ns.ledger.queues).stations := by
    rw [departing]
    have current : (ns.ledger.lock l).station = (ns.lock l).station := rfl
    refine Ledger.leads_seat _ known current ?_ rfl
    rw [show (ns.ledger.lock l).state = .canceling from canceling]
    rfl
  have coherent := departing.symm ▸ sound.ledger.coherent.leave known
  rw [leave_eq, stations_retire, stations_conclude ns _ _ ns.ledger.queues]
  exact first.append (Arbiter.leads_reprocess coherent)

end Namespace

/-- Whatever becomes of the locks when a stage is carried out is told by its attempts. -/
theorem Stage.Ready.leads {ns : Namespace} {stage : Stage} {r : ResourceId}
    (ready : stage.Ready ns r) (sound : ns.Sound) :
    ns.stations.Leads (stage.advances ns r) (stage.carryOut ns r).space.stations := by
  have still {ns' : Namespace} (same : Namespace.Alike ns ns') :
      ns.stations.Leads [] ns'.stations := same.stations.symm ▸ .nil _
  obtain ⟨fits, bound, going⟩ := ready
  cases stage with
  | submit l discard =>
    have leads := sound.leads_submit fits (bound l _ rfl)
    simp only [carryOut]
    cases done : ns.submit l r with
    | ok p =>
      rw [done] at leads
      exact leads
    | error e =>
      rw [done] at leads
      cases discard with
      | true => exact (ns.alike_silence [l]).stations.symm ▸ leads
      | false => exact leads
  | changeMode l mode =>
    have leads := sound.leads_changeMode fits mode (bound l _ rfl)
    simp only [carryOut]
    cases done : ns.changeMode l mode r <;> rw [done] at leads <;> exact leads
  | mark l join =>
    have leads := Namespace.leads_mark fits
    simp only [carryOut]
    cases marked : ns.mark? l <;> rw [marked] at leads <;> exact leads
  | leave l =>
    have leads := sound.leads_leave fits (bound l _ rfl) (going l rfl)
    rw [← ((ns.leave l r).alike_dropRef r).stations] at leads
    exact leads
  | ask q requester =>
    exact still ((Namespace.alike_ask fits requester).alike (Namespace.alike_dropRef _ q))
  | reclaim q => exact still (ns.alike_reclaim q)
  | move l target =>
    have same := ((ns.move l target).2.2.alike_dropRef (ns.move l target).2.1).stations
    rw [ns.stations_move] at same
    exact same.symm ▸ .nil _
  | forget owner => exact still (ns.alike_forget owner)
  | close => exact still ns.alike_closeDispatcher
  | look q others seen => cases others <;> exact .nil _
  | awaitRetired l => exact .nil _
  | lookAround l => exact .nil _
  | hold l role => exact .nil _

end LockManager
