import LockManager.Control.Command
import LockManager.Proofs.Control.Packed

set_option autoImplicit false

/-!
Administrative commands and the requests that carry them. A command is read from one request only, the
one that it is packed to: for each kind of argument a lemma says which buffer it is read from.
-/

namespace LockManager

namespace Bytes

theorem ofText_of_toText? {bytes : Bytes} {s : String} (read : bytes.toText? = some s) :
    ofText s = bytes := by
  simp only [toText?, String.fromUTF8?] at read
  split_ifs at read with valid
  obtain rfl := Option.some.inj read
  rfl

theorem ofText_eq_flatMap (s : String) : ofText s = s.toList.flatMap String.utf8EncodeChar := by
  simp only [ofText, String.toUTF8]
  rw [← String.utf8Encode_toList]
  simp [List.utf8Encode]

theorem zero_eq_ofNat_iff {n : Nat} : 0 = UInt8.ofNat n ↔ n % 256 = 0 := by
  rw [← UInt8.toNat_inj]
  simp [eq_comm]

/-- In an encoding of several bytes each has its highest bit set. -/
theorem zero_mem_utf8EncodeChar_iff {c : Char} : 0 ∈ String.utf8EncodeChar c ↔ c = '\x00' := by
  have value : c = '\x00' ↔ c.val.toNat = 0 := by
    rw [← Char.val_inj, ← UInt32.toNat_inj]
    rfl
  simp only [value, String.utf8EncodeChar]
  split_ifs with ascii two three
  · simp only [List.mem_singleton, zero_eq_ofNat_iff]
    omega
  all_goals
    simp only [List.mem_cons, List.not_mem_nil, or_false, zero_eq_ofNat_iff]
    omega

theorem zero_mem_ofText_iff {s : String} : 0 ∈ ofText s ↔ '\x00' ∈ s.toList := by
  simp [ofText_eq_flatMap, zero_mem_utf8EncodeChar_iff]

end Bytes

namespace Packed

theorem textArgument_eq_ok_iff {command : CommandKind} {s : String} {b : Bytes} :
    textArgument command s = .ok b ↔ '\x00' ∉ s.toList ∧ b = Bytes.ofText s ++ [0] := by
  simp only [textArgument, Bytes.zero_mem_ofText_iff]
  split_ifs with nul
  · simp [nul]
  · simp [nul, eq_comm]

theorem text_eq_none_iff {p : Packed} {slot : Nat} :
    p.text slot = .ok none ↔ p.buffers[slot]? = none := by
  simp only [text]
  split
  · simp_all
  · next b found =>
    split_ifs <;> try simp [found]
    cases Bytes.toText? b.dropLast <;> simp

theorem text_eq_some_iff {p : Packed} {slot : Nat} {s : String} :
    p.text slot = .ok (some s) ↔
      '\x00' ∉ s.toList ∧ p.buffers[slot]? = some (Bytes.ofText s ++ [0]) := by
  constructor
  · intro read
    simp only [text] at read
    split at read
    · cases read
    · next b found =>
      split_ifs at read with last interior
      split at read
      · next s' spelt =>
        obtain rfl := Option.some.inj (Except.ok.inj read)
        have body := Bytes.ofText_of_toText? spelt
        have whole := List.dropLast_append_getLast? 0 (not_not.1 last)
        rw [← Bytes.zero_mem_ofText_iff, body]
        exact ⟨interior, by rw [whole, found]⟩
      · cases read
  · rintro ⟨clean, found⟩
    simp [text, found, Bytes.zero_mem_ofText_iff, clean]

theorem number_eq_some_iff {p : Packed} {slot : Nat} {n : UInt64} :
    p.number slot = .ok (some n) ↔ p.buffers[slot]? = some (Bytes.ofNat 8 n.toNat) := by
  simp only [number]
  constructor
  · intro read
    split at read
    · cases read
    · next b found =>
      split_ifs at read with width
      obtain rfl := Option.some.inj (Except.ok.inj read)
      have small : Bytes.toNat b < 2 ^ 64 := by
        have := Bytes.toNat_lt b
        rwa [width] at this
      rw [found, UInt64.toNat_ofNat_of_lt' small, ← width, Bytes.ofNat_toNat]
  · intro found
    have value : Bytes.toNat (Bytes.ofNat 8 n.toNat) = n.toNat := by
      rw [Bytes.toNat_ofNat]
      exact Nat.mod_eq_of_lt n.toNat_lt
    simp [found, value]

end Packed

namespace AdminCommand

def kind : AdminCommand → CommandKind
  | .listLocks _ => .listLocks
  | .listResources => .listResources
  | .forceCancel _ => .forceCancel
  | .evict _ => .evict

/-- The owner that the command names. -/
def owner? : AdminCommand → Option Owner
  | .listLocks owner => owner
  | .evict owner => some owner
  | _ => none

/-- The arguments of the command as bytes. -/
def arguments : AdminCommand → List Bytes
  | .forceCancel h => [Bytes.ofNat 8 h.cookie.toNat]
  | c => (c.owner?.map fun owner => Bytes.ofText owner.name ++ [0]).toList

/-- Length of the packed command. -/
def packedSize (c : AdminCommand) : Nat :=
  Header.size + ((c.arguments.map List.length).map Header.padded).sum

/-- The name of an owner ends at its first NUL. -/
def Named (c : AdminCommand) : Prop := ∀ owner ∈ c.owner?, '\x00' ∉ owner.name.toList

/-- The request that carries the command. -/
def Carries (p : Packed) (c : AdminCommand) : Prop :=
  c.Named ∧ p.command = c.kind ∧ p.buffers = c.arguments

theorem expectAtMost_eq_ok_iff {p : Packed} {limit : Nat} :
    expectAtMost p limit = .ok () ↔ p.buffers.length ≤ limit := by
  simp only [expectAtMost]
  split_ifs with many
  · simp [many]
  · simp [Nat.le_of_not_lt many]

/-- A text is packed as one buffer, which is never empty. -/
theorem ofBuffers_textArgument_eq_ok_iff {command : CommandKind} {s : String} {p : Packed} :
    (Packed.textArgument command s >>= fun b => Packed.ofBuffers command [b]) = .ok p ↔
      '\x00' ∉ s.toList ∧ p.command = command ∧ p.buffers = [Bytes.ofText s ++ [0]] := by
  have built : Packed.ofBuffers command [Bytes.ofText s ++ [0]] = .ok p ↔
      p.command = command ∧ p.buffers = [Bytes.ofText s ++ [0]] := by
    apply Packed.ofBuffers_eq_ok_iff
    · simp [Header.slotCount]
    · simp
  simp only [ControlError.bind_eq_ok_iff, Packed.textArgument_eq_ok_iff]
  constructor
  · rintro ⟨-, ⟨clean, rfl⟩, whole⟩
    exact ⟨clean, built.1 whole⟩
  · rintro ⟨clean, whole⟩
    exact ⟨_, ⟨clean, rfl⟩, built.2 whole⟩

theorem toPacked_eq_ok_iff {c : AdminCommand} {p : Packed} :
    c.toPacked = .ok p ↔ Carries p c := by
  have bare : ∀ command, Packed.ofBuffers command [] = .ok p ↔
      p.command = command ∧ p.buffers = [] := by
    intro command
    apply Packed.ofBuffers_eq_ok_iff <;> simp
  simp only [Carries, Named]
  cases c with
  | listLocks owner =>
    cases owner with
    | none => simpa [toPacked, owner?, kind, arguments] using bare .listLocks
    | some owner =>
      simpa [toPacked, owner?, kind, arguments] using ofBuffers_textArgument_eq_ok_iff
  | listResources => simpa [toPacked, owner?, kind, arguments] using bare .listResources
  | forceCancel h =>
    have packed : toPacked (.forceCancel h)
        = Packed.ofBuffers .forceCancel [Bytes.ofNat 8 h.cookie.toNat] :=
      (packHandle h).ofBuffers_self.symm
    have built : Packed.ofBuffers .forceCancel [Bytes.ofNat 8 h.cookie.toNat] = .ok p ↔
        p.command = .forceCancel ∧ p.buffers = [Bytes.ofNat 8 h.cookie.toNat] :=
      Packed.ofBuffers_eq_ok_iff (packHandle h).few (packHandle h).used
    simpa [packed, owner?, kind, arguments] using built
  | evict owner => simpa [toPacked, owner?, kind, arguments] using ofBuffers_textArgument_eq_ok_iff

theorem eq_singleton_of_few {buffers : List Bytes} {b : Bytes} (few : buffers.length ≤ 1)
    (first : buffers[0]? = some b) : buffers = [b] := by
  cases buffers with
  | nil => cases first
  | cons b' rest =>
    obtain rfl : rest = [] := by simpa using few
    simpa using first

/-- A request with one slot at most has a text in it or is empty. -/
theorem text_first {p : Packed} (few : p.buffers.length ≤ 1) {o : Option String}
    (read : p.text 0 = .ok o) :
    (∀ s ∈ o, '\x00' ∉ s.toList) ∧
      p.buffers = (o.map fun s => Bytes.ofText s ++ [0]).toList := by
  cases o with
  | none =>
    have empty := Packed.text_eq_none_iff.1 read
    simpa using empty
  | some s =>
    obtain ⟨clean, first⟩ := Packed.text_eq_some_iff.1 read
    simpa [clean] using eq_singleton_of_few few first

theorem carries_of_ofPacked {p : Packed} {c : AdminCommand} (read : ofPacked p = .ok c) :
    Carries p c ∧ c ≠ .evict ⟨""⟩ := by
  simp only [ofPacked] at read
  cases command : p.command with
  | listLocks =>
    simp only [command, ControlError.bind_eq_ok_iff] at read
    obtain ⟨⟨⟩, few, o, read, whole⟩ := read
    obtain rfl := Except.ok.inj whole
    obtain ⟨clean, buffers⟩ := text_first (expectAtMost_eq_ok_iff.1 few) read
    cases o <;> simp_all [Carries, Named, owner?, kind, arguments]
  | listResources =>
    simp only [command, ControlError.bind_eq_ok_iff] at read
    obtain ⟨⟨⟩, few, whole⟩ := read
    obtain rfl := Except.ok.inj whole
    have empty : p.buffers = [] := by
      simpa using expectAtMost_eq_ok_iff.1 few
    simp [Carries, Named, owner?, kind, arguments, command, empty]
  | forceCancel =>
    simp only [command, ControlError.bind_eq_ok_iff] at read
    obtain ⟨⟨⟩, few, n, read, whole⟩ := read
    cases n with
    | none => cases whole
    | some cookie =>
      obtain rfl := Except.ok.inj whole
      have buffers := eq_singleton_of_few (expectAtMost_eq_ok_iff.1 few)
        (Packed.number_eq_some_iff.1 read)
      simp [Carries, Named, owner?, kind, arguments, command, buffers]
  | evict =>
    simp only [command, ControlError.bind_eq_ok_iff] at read
    obtain ⟨⟨⟩, few, o, read, whole⟩ := read
    obtain ⟨clean, buffers⟩ := text_first (expectAtMost_eq_ok_iff.1 few) read
    cases o with
    | none => cases whole
    | some s =>
      dsimp only at whole
      split_ifs at whole with nameless
      · cases whole
      · obtain rfl := Except.ok.inj whole
        have nonempty : s ≠ "" := by simpa [String.isEmpty_iff] using nameless
        simpa [Carries, Named, owner?, kind, arguments, command, buffers, nonempty] using clean

theorem ofPacked_of_carries {p : Packed} {c : AdminCommand} (carried : Carries p c)
    (sensible : c ≠ .evict ⟨""⟩) : ofPacked p = .ok c := by
  obtain ⟨named, command, buffers⟩ := carried
  have few : ∀ limit, c.arguments.length ≤ limit → expectAtMost p limit = .ok () := by
    intro limit room
    apply expectAtMost_eq_ok_iff.2
    rwa [buffers]
  have texts : ∀ owner ∈ c.owner?, p.buffers = [Bytes.ofText owner.name ++ [0]] →
      p.text 0 = .ok (some owner.name) := by
    intro owner known buffers
    apply Packed.text_eq_some_iff.2
    exact ⟨named owner known, by rw [buffers]; rfl⟩
  simp only [ofPacked, command]
  cases c with
  | listLocks owner =>
    apply ControlError.bind_eq_ok_iff.2
    refine ⟨(), few 1 ?_, ControlError.bind_eq_ok_iff.2 ?_⟩
    · cases owner <;> simp [arguments, owner?]
    · cases owner with
      | none =>
        have empty : p.buffers[0]? = none := by simp [buffers, arguments, owner?]
        exact ⟨none, Packed.text_eq_none_iff.2 empty, rfl⟩
      | some owner => exact ⟨some owner.name, texts owner rfl buffers, rfl⟩
  | listResources =>
    apply ControlError.bind_eq_ok_iff.2
    exact ⟨(), few 0 (Nat.le_refl 0), rfl⟩
  | forceCancel h =>
    have cookie : p.number 0 = .ok (some h.cookie) := by
      apply Packed.number_eq_some_iff.2
      rw [buffers]
      rfl
    apply ControlError.bind_eq_ok_iff.2
    refine ⟨(), few 1 (Nat.le_refl 1), ControlError.bind_eq_ok_iff.2 ⟨_, cookie, ?_⟩⟩
    simp [pure, Except.pure]
  | evict owner =>
    apply ControlError.bind_eq_ok_iff.2
    refine ⟨(), few 1 (Nat.le_refl 1), ControlError.bind_eq_ok_iff.2 ⟨_, texts owner rfl buffers, ?_⟩⟩
    have nonempty : ¬ owner.name.isEmpty := by
      intro nameless
      apply sensible
      rw [String.isEmpty_iff] at nameless
      simp [← nameless]
    simp [nonempty, pure, Except.pure]

/-- A command is read from the bytes that it is packed to, and from no others. -/
theorem ofPacked_unpack_eq_ok_iff {bytes : Bytes} {c : AdminCommand} :
    (Packed.unpack bytes >>= ofPacked) = .ok c ↔
      (c.toPacked >>= Packed.pack) = .ok bytes ∧ c ≠ .evict ⟨""⟩ := by
  simp only [ControlError.bind_eq_ok_iff, Packed.unpack_eq_ok_iff, toPacked_eq_ok_iff]
  constructor
  · rintro ⟨p, packed, read⟩
    obtain ⟨carried, sensible⟩ := carries_of_ofPacked read
    exact ⟨⟨p, carried, packed⟩, sensible⟩
  · rintro ⟨⟨p, carried, packed⟩, sensible⟩
    exact ⟨p, packed, ofPacked_of_carries carried sensible⟩

theorem length_arguments_le (c : AdminCommand) : c.arguments.length ≤ 1 := by
  rcases c with (_ | owner) | _ | h | owner <;> simp [arguments, owner?]

theorem ne_nil_of_mem_arguments {c : AdminCommand} {b : Bytes} (known : b ∈ c.arguments) :
    b ≠ [] := by
  rintro rfl
  rcases c with (_ | owner) | _ | h | owner <;> simp [arguments, owner?, Bytes.ofNat] at known

/-- A command is packed if its owner can be named and its size fits into a word. -/
theorem exists_pack {c : AdminCommand} (named : c.Named) (room : c.packedSize < UInt32.size) :
    ∃ p bytes, c.toPacked = .ok p ∧ p.pack = .ok bytes := by
  have few : c.arguments.length ≤ Header.slotCount := c.length_arguments_le.trans (by decide)
  have used : ∀ b ∈ c.arguments, b ≠ [] := fun _ => ne_nil_of_mem_arguments
  obtain ⟨p, carried⟩ : ∃ p, Carries p c :=
    ⟨{ command := c.kind, buffers := c.arguments, few, used }, named, rfl, rfl⟩
  have whole : p.total < UInt32.size := by
    simp only [Packed.total, carried.2.2]
    exact room
  exact ⟨p, _, toPacked_eq_ok_iff.2 carried, Packed.pack_eq_ok_iff.2 ⟨whole, rfl⟩⟩

theorem toPacked_of_nul {c : AdminCommand} {owner : Owner} (known : c.owner? = some owner)
    (nul : '\x00' ∈ owner.name.toList) :
    c.toPacked = .error (.invalidArgument c.kind .containsNul) := by
  have refused : ∀ command, Packed.textArgument command owner.name
      = .error (.invalidArgument command .containsNul) := by
    intro command
    exact if_pos (Bytes.zero_mem_ofText_iff.2 nul)
  cases c with
  | listLocks filter =>
    obtain rfl : filter = some owner := known
    simp [toPacked, refused, kind, bind, Except.bind]
  | listResources => cases known
  | forceCancel h => cases known
  | evict victim =>
    obtain rfl : victim = owner := Option.some.inj known
    simp [toPacked, refused, kind, bind, Except.bind]

/-- Commands and the bytes they are packed to stand for each other one to one. A command cannot be
packed if its owner has a NUL in its name or its size does not fit into a word. To evict an owner
without a name can be packed, but is not read. -/
theorem command_survives_packing :
    (∀ c : AdminCommand, (∀ owner ∈ c.owner?, '\x00' ∉ owner.name.toList) → c ≠ .evict ⟨""⟩ →
      c.packedSize < UInt32.size →
      ∃ p bytes, c.toPacked = .ok p ∧ p.pack = .ok bytes ∧
        (Packed.unpack bytes >>= ofPacked) = .ok c) ∧
    (∀ (c : AdminCommand) (owner : Owner), c.owner? = some owner → '\x00' ∈ owner.name.toList →
      c.toPacked = .error (.invalidArgument c.kind .containsNul)) ∧
    (∀ (bytes : Bytes) (c : AdminCommand), (Packed.unpack bytes >>= ofPacked) = .ok c →
      (c.toPacked >>= Packed.pack) = .ok bytes) := by
  refine ⟨?_, ?_, ?_⟩
  · intro c named sensible room
    obtain ⟨p, bytes, carried, packed⟩ := exists_pack named room
    have whole : (c.toPacked >>= Packed.pack) = .ok bytes :=
      ControlError.bind_eq_ok_iff.2 ⟨p, carried, packed⟩
    exact ⟨p, bytes, carried, packed, ofPacked_unpack_eq_ok_iff.2 ⟨whole, sensible⟩⟩
  · intro c owner known nul
    exact toPacked_of_nul known nul
  · intro bytes c read
    exact (ofPacked_unpack_eq_ok_iff.1 read).1

/-- An owner's name of two bytes a letter, and a NUL that cuts it short. -/
theorem command_survives_packing_evict :
    (∃ p bytes, toPacked (.evict ⟨"ä"⟩) = .ok p ∧ p.pack = .ok bytes ∧
      (Packed.unpack bytes >>= ofPacked) = .ok (.evict ⟨"ä"⟩)) ∧
    toPacked (.evict ⟨"ä\x00"⟩) = .error (.invalidArgument .evict .containsNul) := by
  refine ⟨command_survives_packing.1 _ ?_ ?_ ?_, command_survives_packing.2.1 _ _ rfl ?_⟩
  · decide +kernel
  · decide
  · decide +kernel
  · decide +kernel

end AdminCommand

end LockManager
