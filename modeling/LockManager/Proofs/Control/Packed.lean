import Mathlib.Algebra.GroupWithZero.Nat
import Mathlib.Algebra.Order.BigOperators.Group.List
import Mathlib.Algebra.Order.Group.Nat
import Mathlib.Data.List.TakeWhile
import LockManager.Control.Packed
import LockManager.Proofs.Control.Header

set_option autoImplicit false

/-!
Packed requests have one form each. Every part of a request has a lemma which says exactly which bytes
it is read from: its buffers, the lengths of the used slots, and the header. Together they say that
unpacking accepts the bytes that packing gives, and no others.
-/

namespace LockManager

theorem ControlError.bind_eq_ok_iff {α β : Type} {x : Except ControlError α}
    {f : α → Except ControlError β} {b : β} :
    (x >>= f) = .ok b ↔ ∃ a, x = .ok a ∧ f a = .ok b := by
  cases x <;> simp [bind, Except.bind]

namespace CommandKind

theorem ofCode?_eq_some_iff {code : UInt32} {command : CommandKind} :
    ofCode? code = some command ↔ command.code = code := by
  constructor
  · intro known
    simpa using List.find?_some known
  · rintro rfl
    cases command <;> rfl

end CommandKind

namespace Header

theorem le_padded (n : Nat) : n ≤ padded n := by
  simp only [padded]
  omega

@[simp] theorem padded_zero : padded 0 = 0 := rfl

theorem expectedTotal_eq (h : Header) :
    h.expectedTotal = size + ((h.lengths.map UInt32.toNat).map padded).sum := by
  simp only [expectedTotal]
  induction h.lengths with
  | nil => rfl
  | cons n rest ih =>
    simp only [List.foldr_cons, ih, List.map_cons, List.sum_cons]
    omega

/-- Empty slots take no room. -/
theorem expectedTotal_of_used {h : Header} {lengths : List Nat} {empty : Nat}
    (used : h.lengths.map UInt32.toNat = lengths ++ List.replicate empty 0) :
    h.expectedTotal = size + (lengths.map padded).sum := by
  simp [expectedTotal_eq, used]

end Header

namespace Packed

/-! ### Buffers -/

theorem length_fill (b : Bytes) : (fill b).length = Header.padded b.length := by
  have := Header.le_padded b.length
  simp only [fill, List.length_append, List.length_replicate]
  omega

/-- A buffer is filled up by zeros only. -/
theorem fill_take {bytes : Bytes} {n : Nat} (room : Header.padded n ≤ bytes.length)
    (zeros : ∀ b ∈ (bytes.take (Header.padded n)).drop n, b = 0) :
    fill (bytes.take n) = bytes.take (Header.padded n) := by
  have fits : n ≤ Header.padded n := Header.le_padded n
  have width : (bytes.take n).length = n := List.length_take_of_le (fits.trans room)
  have padding : (bytes.take (Header.padded n)).drop n
      = List.replicate (Header.padded n - n) 0 := by
    apply List.eq_replicate_iff.2
    refine ⟨?_, zeros⟩
    simp [List.length_take_of_le room]
  calc fill (bytes.take n)
    _ = bytes.take n ++ List.replicate (Header.padded n - n) 0 := by rw [fill, width]
    _ = (bytes.take (Header.padded n)).take n ++ (bytes.take (Header.padded n)).drop n := by
      rw [padding, List.take_take, Nat.min_eq_left fits]
    _ = bytes.take (Header.padded n) := List.take_append_drop n _

theorem readBuffers_cons_eq_ok_iff {slot n : Nat} {rest : List Nat} {bytes after : Bytes}
    {buffers : List Bytes} :
    readBuffers slot (n :: rest) bytes = .ok (buffers, after) ↔
      Header.padded n ≤ bytes.length ∧
      (∀ b ∈ (bytes.take (Header.padded n)).drop n, b = 0) ∧
      ∃ others, buffers = bytes.take n :: others ∧
        readBuffers (slot + 1) rest (bytes.drop (Header.padded n)) = .ok (others, after) := by
  simp only [readBuffers]
  split_ifs with short filled
  · simp [Nat.not_le.2 short]
  · have : ¬ ∀ b ∈ (bytes.take (Header.padded n)).drop n, b = 0 := by
      simpa using filled
    simp [this]
  · have zeros : ∀ b ∈ (bytes.take (Header.padded n)).drop n, b = 0 := by
      simpa using filled
    rw [ControlError.bind_eq_ok_iff]
    constructor
    · rintro ⟨⟨others, left⟩, read, whole⟩
      obtain ⟨rfl, rfl⟩ := Prod.mk.inj (Except.ok.inj whole)
      exact ⟨Nat.le_of_not_lt short, zeros, others, rfl, read⟩
    · rintro ⟨-, -, others, rfl, read⟩
      exact ⟨(others, after), read, rfl⟩

/-- Buffers are read from exactly the bytes which they are filled up to. -/
theorem readBuffers_eq_ok_iff {slot : Nat} {lengths : List Nat} {bytes after : Bytes}
    {buffers : List Bytes} :
    readBuffers slot lengths bytes = .ok (buffers, after) ↔
      buffers.map List.length = lengths ∧ bytes = buffers.flatMap fill ++ after := by
  induction lengths generalizing slot bytes buffers with
  | nil =>
    simp only [readBuffers, Except.ok.injEq, Prod.mk.injEq, List.map_eq_nil_iff]
    constructor
    · rintro ⟨rfl, rfl⟩
      exact ⟨rfl, rfl⟩
    · rintro ⟨rfl, rfl⟩
      exact ⟨rfl, rfl⟩
  | cons n rest ih =>
    rw [readBuffers_cons_eq_ok_iff]
    constructor
    · rintro ⟨room, zeros, others, rfl, read⟩
      obtain ⟨lengths, split⟩ := ih.1 read
      have fits : n ≤ bytes.length := (Header.le_padded n).trans room
      refine ⟨by simp [lengths, fits], ?_⟩
      calc bytes
        _ = bytes.take (Header.padded n) ++ bytes.drop (Header.padded n) :=
          (List.take_append_drop _ bytes).symm
        _ = fill (bytes.take n) ++ (others.flatMap fill ++ after) := by
          rw [fill_take room zeros, split]
        _ = (bytes.take n :: others).flatMap fill ++ after := by simp
    · rintro ⟨widths, rfl⟩
      obtain ⟨b, others, rfl, rfl, lengths⟩ := List.map_eq_cons_iff.1 widths
      have width : (fill b).length = Header.padded b.length := length_fill b
      have front : ((b :: others).flatMap fill ++ after).take (Header.padded b.length) = fill b := by
        rw [← width]
        simp
      have back : ((b :: others).flatMap fill ++ after).drop (Header.padded b.length)
          = others.flatMap fill ++ after := by
        rw [← width]
        simp
      refine ⟨?_, ?_, others, ?_, ?_⟩
      · simp [← width]
      · rw [front]
        simp [fill]
      · simp [fill]
      · rw [back]
        exact ih.2 ⟨lengths, rfl⟩

/-! ### Slots -/

theorem takeWhile_used {lengths : List Nat} (used : ∀ n ∈ lengths, n ≠ 0) (empty : Nat) :
    (lengths ++ List.replicate empty 0).takeWhile (· ≠ 0) = lengths := by
  rw [List.takeWhile_append_of_pos (by simpa using used)]
  cases empty <;> simp

/-- No slot is used after an empty one. -/
theorem gap?_eq_none_iff {lengths : List Nat} :
    gap? lengths = none ↔
      ∃ empty, lengths = lengths.takeWhile (· ≠ 0) ++ List.replicate empty 0 := by
  have split := List.take_append_drop (lengths.takeWhile (· ≠ 0)).length lengths
  have front : lengths.take (lengths.takeWhile (· ≠ 0)).length = lengths.takeWhile (· ≠ 0) :=
    (List.prefix_iff_eq_take.1 (List.takeWhile_prefix _)).symm
  rw [front] at split
  simp only [gap?, Option.map_eq_none_iff, List.findIdx?_eq_none_iff]
  constructor
  · intro zeros
    refine ⟨(lengths.drop (lengths.takeWhile (· ≠ 0)).length).length, ?_⟩
    have back := List.eq_replicate_of_mem fun n known => by simpa using zeros n known
    rw [← back]
    exact split.symm
  · rintro ⟨empty, whole⟩ n known
    have back := List.append_cancel_left (split.trans whole)
    rw [back] at known
    simp [List.eq_of_mem_replicate known]

theorem usedLengths_eq_ok_iff {h : Header} {lengths : List Nat} :
    usedLengths h = .ok lengths ↔
      (∀ n ∈ lengths, n ≠ 0) ∧
      ∃ empty, h.lengths.map UInt32.toNat = lengths ++ List.replicate empty 0 := by
  constructor
  · intro read
    refine ⟨(usedLengths_few read).2, ?_⟩
    simp only [usedLengths] at read
    split at read
    · cases read
    · next none =>
      obtain rfl := Except.ok.inj read
      exact gap?_eq_none_iff.1 none
  · rintro ⟨used, empty, whole⟩
    have front := takeWhile_used used empty
    have none : gap? (h.lengths.map UInt32.toNat) = none := by
      apply gap?_eq_none_iff.2
      refine ⟨empty, ?_⟩
      rw [whole, front]
    simp only [usedLengths, none, Except.ok.injEq]
    rw [whole, front]

/-! ### The whole request -/

/-- Length of the packed request. -/
def total (p : Packed) : Nat :=
  Header.size + ((p.buffers.map List.length).map Header.padded).sum

theorem length_lt_of_total {p : Packed} (room : p.total < UInt32.size) {b : Bytes}
    (known : b ∈ p.buffers) : b.length < UInt32.size := by
  have counted : Header.padded b.length ≤ ((p.buffers.map List.length).map Header.padded).sum := by
    apply List.le_sum_of_mem
    exact List.mem_map_of_mem (List.mem_map_of_mem known)
  have := Header.le_padded b.length
  simp only [total] at room
  omega

theorem lengths_header {p : Packed} (small : ∀ b ∈ p.buffers, b.length < UInt32.size)
    (total : UInt32) :
    (p.header total).lengths.map UInt32.toNat = p.buffers.map List.length ++
      List.replicate (Header.slotCount - p.buffers.length) 0 := by
  have exact : ∀ b ∈ p.buffers, (UInt32.ofNat b.length).toNat = b.length := by
    intro b known
    exact UInt32.toNat_ofNat_of_lt' (small b known)
  simpa [header] using exact

theorem expectedTotal_header {p : Packed} (small : ∀ b ∈ p.buffers, b.length < UInt32.size)
    (total : UInt32) : (p.header total).expectedTotal = p.total :=
  Header.expectedTotal_of_used (lengths_header small total)

theorem pack_eq_ok_iff {p : Packed} {bytes : Bytes} :
    p.pack = .ok bytes ↔
      p.total < UInt32.size ∧
      bytes = (p.header (UInt32.ofNat p.total)).encode ++ p.buffers.flatMap fill := by
  simp only [pack]
  split
  · next slot found =>
    have large : ¬ p.total < UInt32.size := by
      intro room
      obtain ⟨inside, large, -⟩ := List.findIdx?_eq_some_iff_getElem.1 found
      have small := length_lt_of_total room (List.getElem_mem inside)
      exact absurd small (Nat.not_lt.2 (of_decide_eq_true large))
    simp [large]
  · next none =>
    have small : ∀ b ∈ p.buffers, b.length < UInt32.size := by
      simpa using List.findIdx?_eq_none_iff.1 none
    rw [expectedTotal_header small]
    split_ifs with room
    · simp [room, eq_comm]
    · simp [room]

/-- The checks that bytes pass on the way to a request. -/
theorem unpack_eq_ok_iff_read {bytes : Bytes} {p : Packed} :
    unpack bytes = .ok p ↔
      ∃ h, Header.decode bytes = .ok h ∧ usedLengths h = .ok (p.buffers.map List.length) ∧
        h.total.toNat = h.expectedTotal ∧
        readBuffers 0 (p.buffers.map List.length) (bytes.drop Header.size) = .ok (p.buffers, []) ∧
        CommandKind.ofCode? h.command = some p.command := by
  constructor
  · intro read
    simp only [unpack] at read
    cases decoded : Header.decode bytes with
    | error e => simp [decoded, bind, Except.bind] at read
    | ok h =>
      simp only [decoded, bind, Except.bind] at read
      refine ⟨h, rfl, ?_⟩
      split at read
      · cases read
      · next lengths found =>
        split at read
        · cases read
        · next agrees =>
          split at read
          · cases read
          · cases read
          · next buffers taken =>
            split at read
            · cases read
            · next command known =>
              obtain rfl := Except.ok.inj read
              obtain rfl := length_readBuffers taken
              exact ⟨found, not_not.1 agrees, taken, known⟩
  · rintro ⟨h, decoded, found, agrees, taken, known⟩
    simp only [unpack, decoded, bind, Except.bind]
    split
    · next e other => simp [found] at other
    · next lengths other =>
      obtain rfl := Except.ok.inj (found.symm.trans other)
      simp only [agrees, ne_eq, not_true_eq_false, if_false]
      split
      · next other => simp [taken] at other
      · next other => simp [taken] at other
      · next buffers other =>
        obtain ⟨rfl, -⟩ := Prod.mk.inj (Except.ok.inj (taken.symm.trans other))
        simp only [known, pure, Except.pure]

/-- A request determines its header but for the total length. -/
theorem header_eq {p : Packed} {h : Header} {empty : Nat} (magic : h.magic = Header.magicWord)
    (version : h.version = Header.currentVersion) (command : p.command.code = h.command)
    (used : h.lengths.map UInt32.toNat
      = p.buffers.map List.length ++ List.replicate empty 0) :
    (∀ b ∈ p.buffers, b.length < UInt32.size) ∧ h = p.header h.total := by
  have small : ∀ b ∈ p.buffers, b.length < UInt32.size := by
    intro b known
    have listed : b.length ∈ h.lengths.map UInt32.toNat := by
      rw [used]
      exact List.mem_append_left _ (List.mem_map_of_mem known)
    obtain ⟨w, -, width⟩ := List.mem_map.1 listed
    rw [← width]
    exact w.toNat_lt
  have rest : empty = Header.slotCount - p.buffers.length := by
    have counted := congrArg List.length used
    simp only [List.length_map, h.four, List.length_append, List.length_replicate] at counted
    simp only [Header.slotCount]
    omega
  have lengths : h.lengths = (p.header h.total).lengths := by
    apply List.map_injective_iff.2 fun _ _ => UInt32.toNat_inj.1
    rw [lengths_header small, used, rest]
  refine ⟨small, Header.ext_words ?_⟩
  simp only [Header.words, lengths, magic, version, ← command]
  rfl

/-- Unpacking undoes packing, and nothing else is unpacked. -/
theorem unpack_eq_ok_iff {bytes : Bytes} {p : Packed} :
    unpack bytes = .ok p ↔ p.pack = .ok bytes := by
  rw [unpack_eq_ok_iff_read, pack_eq_ok_iff]
  constructor
  · rintro ⟨h, decoded, found, agrees, taken, known⟩
    obtain ⟨magic, version, after, rfl⟩ := Header.decode_eq_ok_iff.1 decoded
    obtain ⟨-, empty, used⟩ := usedLengths_eq_ok_iff.1 found
    obtain ⟨small, written⟩ :=
      header_eq magic version (CommandKind.ofCode?_eq_some_iff.1 known) used
    have whole : h.total.toNat = p.total := agrees.trans (Header.expectedTotal_of_used used)
    have total : h.total = UInt32.ofNat p.total := by
      rw [← whole, UInt32.ofNat_toNat]
    have body : after = p.buffers.flatMap fill := by
      have split := (readBuffers_eq_ok_iff.1 taken).2
      rwa [List.drop_left' h.length_encode, List.append_nil] at split
    refine ⟨whole ▸ h.total.toNat_lt, ?_⟩
    rw [body, ← total, ← written]
  · rintro ⟨room, rfl⟩
    have small : ∀ b ∈ p.buffers, b.length < UInt32.size := fun b => length_lt_of_total room
    refine ⟨p.header (UInt32.ofNat p.total), ?_, ?_, ?_, ?_, ?_⟩
    · apply Header.decode_eq_ok_iff.2
      exact ⟨rfl, rfl, List.prefix_append _ _⟩
    · apply usedLengths_eq_ok_iff.2
      refine ⟨?_, _, lengths_header small _⟩
      intro n known
      obtain ⟨b, member, rfl⟩ := List.mem_map.1 known
      exact fun none => p.used b member (List.length_eq_zero_iff.1 none)
    · rw [expectedTotal_header small]
      exact UInt32.toNat_ofNat_of_lt' room
    · apply readBuffers_eq_ok_iff.2
      rw [List.drop_left' (Header.length_encode _), List.append_nil]
      exact ⟨rfl, rfl⟩
    · exact CommandKind.ofCode?_eq_some_iff.2 rfl

theorem length_of_pack {p : Packed} {bytes : Bytes} (packed : p.pack = .ok bytes) :
    bytes.length = p.total := by
  obtain ⟨-, rfl⟩ := pack_eq_ok_iff.1 packed
  simp [total, List.length_flatMap, length_fill, Function.comp_def]

/-- The total length is read before anything that could be cut off. -/
theorem eq_of_extends {p p' : Packed} {bytes bytes' : Bytes} (packed : p.pack = .ok bytes)
    (packed' : p'.pack = .ok bytes') (longer : bytes <+: bytes') : bytes = bytes' := by
  obtain ⟨room, written⟩ := pack_eq_ok_iff.1 packed
  obtain ⟨room', written'⟩ := pack_eq_ok_iff.1 packed'
  have front : (p.header (UInt32.ofNat p.total)).encode <+: bytes' := by
    apply List.IsPrefix.trans _ longer
    exact ⟨_, written.symm⟩
  have front' : (p'.header (UInt32.ofNat p'.total)).encode <+: bytes' := ⟨_, written'.symm⟩
  have same : (p.header (UInt32.ofNat p.total)) = (p'.header (UInt32.ofNat p'.total)) := by
    apply Header.ext_words
    exact (Header.words_of_encode front).trans (Header.words_of_encode front').symm
  have totals : p.total = p'.total := by
    have words := congrArg (·.total.toNat) same
    simpa [header, UInt32.toNat_ofNat_of_lt' room, UInt32.toNat_ofNat_of_lt' room'] using words
  apply longer.eq_of_length
  rw [length_of_pack packed, length_of_pack packed', totals]

/-- A request is built from its own buffers, so building gives every request that there is. -/
theorem ofBuffers_self (p : Packed) : ofBuffers p.command p.buffers = .ok p := by
  have trimmed : (p.buffers.reverse.dropWhile (·.isEmpty)).reverse = p.buffers := by
    have last : p.buffers.reverse.dropWhile (·.isEmpty) = p.buffers.reverse := by
      apply List.dropWhile_eq_self_iff.2
      intro some
      have known : p.buffers.reverse[0] ∈ p.buffers := List.mem_reverse.1 (List.getElem_mem some)
      simpa using p.used _ known
    rw [last, List.reverse_reverse]
  simp only [ofBuffers, trimmed]
  rw [dif_pos p.few, dif_pos p.used]

theorem ofBuffers_eq_ok_iff {command : CommandKind} {buffers : List Bytes}
    (few : buffers.length ≤ Header.slotCount) (used : ∀ b ∈ buffers, b ≠ []) {p : Packed} :
    ofBuffers command buffers = .ok p ↔ p.command = command ∧ p.buffers = buffers := by
  have built := ofBuffers_self { command, buffers, few, used }
  constructor
  · intro other
    obtain rfl := Except.ok.inj (built.symm.trans other)
    exact ⟨rfl, rfl⟩
  · rintro ⟨rfl, rfl⟩
    exact built

/-- Requests and the bytes they are packed to stand for each other one to one, and where one
request ends can be seen from its bytes. -/
theorem packed_form_canonical :
    (∀ (p : Packed) (bytes : Bytes), p.pack = .ok bytes → unpack bytes = .ok p) ∧
    (∀ (bytes : Bytes) (p : Packed), unpack bytes = .ok p →
      ofBuffers p.command p.buffers = .ok p ∧ p.pack = .ok bytes) ∧
    (∀ bytes : Bytes, (∃ p, unpack bytes = .ok p) ↔
      ∃ command buffers p, ofBuffers command buffers = .ok p ∧ p.pack = .ok bytes) ∧
    (∀ (bytes bytes' : Bytes) (p : Packed),
      unpack bytes = .ok p → unpack bytes' = .ok p → bytes = bytes') ∧
    (∀ (bytes bytes' : Bytes) (p p' : Packed),
      unpack bytes = .ok p → unpack bytes' = .ok p' → bytes <+: bytes' → bytes = bytes') := by
  refine ⟨?_, ?_, ?_, ?_, ?_⟩
  · intro p bytes packed
    exact unpack_eq_ok_iff.2 packed
  · intro bytes p read
    exact ⟨ofBuffers_self p, unpack_eq_ok_iff.1 read⟩
  · intro bytes
    constructor
    · rintro ⟨p, read⟩
      exact ⟨p.command, p.buffers, p, ofBuffers_self p, unpack_eq_ok_iff.1 read⟩
    · rintro ⟨-, -, p, -, packed⟩
      exact ⟨p, unpack_eq_ok_iff.2 packed⟩
  · intro bytes bytes' p read read'
    have packed := unpack_eq_ok_iff.1 read
    exact Except.ok.inj (packed.symm.trans (unpack_eq_ok_iff.1 read'))
  · intro bytes bytes' p p' read read'
    exact eq_of_extends (unpack_eq_ok_iff.1 read) (unpack_eq_ok_iff.1 read')

/-- Two buffers, one of which is filled up. -/
def twoBuffers : Packed where
  command := .forceCancel
  buffers := [[1, 0, 0, 0, 2, 0, 0, 0], [97, 98, 0]]
  few := by decide
  used := by decide

def twoBuffersBytes : Bytes :=
  [0x43, 0x4c, 0x4b, 0x43, 1, 0, 0, 0, 48, 0, 0, 0, 3, 0, 0, 0,
    8, 0, 0, 0, 3, 0, 0, 0, 0, 0, 0, 0, 0, 0, 0, 0,
    1, 0, 0, 0, 2, 0, 0, 0, 97, 98, 0, 0, 0, 0, 0, 0]

theorem packed_form_canonical_two_buffers :
    twoBuffers.pack = .ok twoBuffersBytes ∧ unpack twoBuffersBytes = .ok twoBuffers ∧
    ∀ after, unpack (twoBuffersBytes ++ after) = .ok twoBuffers → after = [] := by
  have packed : twoBuffers.pack = .ok twoBuffersBytes := rfl
  have read := packed_form_canonical.1 twoBuffers twoBuffersBytes packed
  refine ⟨packed, read, ?_⟩
  intro after longer
  have same := packed_form_canonical.2.2.2.2 _ _ _ _ read longer (List.prefix_append _ after)
  exact List.append_right_eq_self.1 same.symm

end Packed

end LockManager
