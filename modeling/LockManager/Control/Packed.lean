import LockManager.Control.Header

set_option autoImplicit false

/-!
Requests packed into bytes: a header and up to four buffers, used front to back. Every packed request
has one form, so bytes that are accepted are the bytes that packing gives back.
-/

namespace LockManager

structure Packed where
  command : CommandKind
  buffers : List Bytes
  few : buffers.length ≤ Header.slotCount
  used : ∀ b ∈ buffers, b ≠ []
  deriving DecidableEq

namespace Packed

/-- The first used slot after an empty one. -/
def gap? (lengths : List Nat) : Option Nat :=
  let front := (lengths.takeWhile (· ≠ 0)).length
  ((lengths.drop front).findIdx? (· ≠ 0)).map (front + ·)

/-- Empty buffers are dropped at the end and refused elsewhere. -/
def ofBuffers (command : CommandKind) (buffers : List Bytes) : Except ControlError Packed :=
  let trimmed := (buffers.reverse.dropWhile (·.isEmpty)).reverse
  if few : trimmed.length ≤ Header.slotCount then
    if used : ∀ b ∈ trimmed, b ≠ [] then .ok { command, buffers := trimmed, few, used }
    else .error (.hole ((gap? (trimmed.map List.length)).getD trimmed.length))
  else .error (.tooManyBuffers trimmed.length)

def header (p : Packed) (total : UInt32) : Header :=
  { magic := Header.magicWord
    version := Header.currentVersion
    total
    command := p.command.code
    lengths :=
      p.buffers.map (UInt32.ofNat ·.length) ++
        List.replicate (Header.slotCount - p.buffers.length) 0
    four := by
      have := p.few
      simp only [Header.slotCount] at this
      simp only [List.length_append, List.length_map, List.length_replicate, Header.slotCount]
      omega }

def fill (b : Bytes) : Bytes := b ++ List.replicate (Header.padded b.length - b.length) 0

def pack (p : Packed) : Except ControlError Bytes :=
  match p.buffers.findIdx? (UInt32.size ≤ ·.length) with
  | some slot => .error (.invalidArgument p.command (.tooLarge slot))
  | none =>
    let total := (p.header 0).expectedTotal
    if total < UInt32.size then .ok ((p.header (UInt32.ofNat total)).encode ++ p.buffers.flatMap fill)
    else .error (.lengthMismatch (UInt32.size - 1) total)

/-- Buffers of the given lengths from slot `slot` on, and the bytes after them. -/
def readBuffers (slot : Nat) : List Nat → Bytes → Except ControlError (List Bytes × Bytes)
  | [], bytes => .ok ([], bytes)
  | n :: rest, bytes =>
    if bytes.length < Header.padded n then .error (.overrun slot)
    else if ((bytes.take (Header.padded n)).drop n).any (· ≠ 0) then .error (.nonZeroPadding slot)
    else do
      let (buffers, after) ← readBuffers (slot + 1) rest (bytes.drop (Header.padded n))
      return (bytes.take n :: buffers, after)

theorem length_readBuffers {slot : Nat} {lengths : List Nat} {bytes after : Bytes}
    {buffers : List Bytes} (h : readBuffers slot lengths bytes = .ok (buffers, after)) :
    buffers.map List.length = lengths := by
  induction lengths generalizing slot bytes buffers with
  | nil => simp_all [readBuffers]
  | cons n rest ih =>
    simp only [readBuffers] at h
    split at h
    · cases h
    · next hlen =>
      split at h
      · cases h
      · cases hr : readBuffers (slot + 1) rest (bytes.drop (Header.padded n)) with
        | error e => simp [hr, bind, Except.bind] at h
        | ok r =>
          obtain ⟨bs, a⟩ := r
          simp only [hr, bind, Except.bind, pure, Except.pure, Except.ok.injEq, Prod.mk.injEq] at h
          obtain ⟨rfl, rfl⟩ := h
          have hn : n ≤ bytes.length := by
            simp only [Header.padded] at hlen
            omega
          simp [ih hr, Nat.min_eq_left hn]

/-- The lengths of the used slots, or the first slot that is used after an empty one. -/
def usedLengths (h : Header) : Except ControlError (List Nat) :=
  let lengths := h.lengths.map UInt32.toNat
  match gap? lengths with
  | some slot => .error (.hole slot)
  | none => .ok (lengths.takeWhile (· ≠ 0))

theorem usedLengths_few {h : Header} {lengths : List Nat} (hl : usedLengths h = .ok lengths) :
    lengths.length ≤ Header.slotCount ∧ ∀ n ∈ lengths, n ≠ 0 := by
  simp only [usedLengths] at hl
  split at hl
  · cases hl
  · simp only [Except.ok.injEq] at hl
    subst hl
    refine ⟨?_, fun n hn => ?_⟩
    · refine Nat.le_trans (List.takeWhile_prefix _).length_le ?_
      simp [h.four, Header.slotCount]
    · simpa using List.all_eq_true.1 List.all_takeWhile n hn

def unpack (bytes : Bytes) : Except ControlError Packed := do
  let h ← Header.decode bytes
  match hl : usedLengths h with
  | .error e => throw e
  | .ok lengths =>
    if h.total.toNat ≠ h.expectedTotal then
      throw (.lengthMismatch h.total.toNat h.expectedTotal)
    match hb : readBuffers 0 lengths (bytes.drop Header.size) with
    | .error e => throw e
    | .ok (_, _ :: _) => throw (.lengthMismatch h.total.toNat bytes.length)
    | .ok (buffers, []) =>
      match CommandKind.ofCode? h.command with
      | none => throw (.unknownCommand h.command)
      | some command =>
        return {
          command
          buffers
          few := by
            have := (usedLengths_few hl).1
            rwa [← length_readBuffers hb, List.length_map] at this
          used := by
            intro b hmem hnil
            refine (usedLengths_few hl).2 b.length ?_ (by simp [hnil])
            rw [← length_readBuffers hb]
            exact List.mem_map_of_mem hmem }

/-! ### Arguments -/

/-- A string ends with the only NUL in it. -/
def textArgument (command : CommandKind) (s : String) : Except ControlError Bytes :=
  if 0 ∈ Bytes.ofText s then .error (.invalidArgument command .containsNul)
  else .ok (Bytes.ofText s ++ [0])

/-- The string in a slot, if the slot is used. -/
def text (p : Packed) (slot : Nat) : Except ControlError (Option String) :=
  match p.buffers[slot]? with
  | none => .ok none
  | some b =>
    if b.getLast? ≠ some 0 then .error (.missingNul slot)
    else if 0 ∈ b.dropLast then .error (.interiorNul slot)
    else
      match Bytes.toText? b.dropLast with
      | some s => .ok (some s)
      | none => .error (.invalidUtf8 slot)

/-- The number in a slot, if the slot is used. -/
def number (p : Packed) (slot : Nat) : Except ControlError (Option UInt64) :=
  match p.buffers[slot]? with
  | none => .ok none
  | some b =>
    if b.length = 8 then .ok (some (UInt64.ofNat b.toNat))
    else .error (.invalidArgument p.command (.notEightBytes slot b.length))

end Packed

end LockManager
