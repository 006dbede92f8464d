import Mathlib.Data.List.Basic
import LockManager.Control.Header

set_option autoImplicit false

/-!
A header is read back from exactly the bytes that begin with what it is written to. Its words are
read one after the other, so both directions are an induction on the number of words.
-/

namespace LockManager

namespace Bytes

@[simp] theorem length_ofWord (w : UInt32) : (ofWord w).length = 4 := length_ofNat 4 w.toNat

theorem wordAt_ofWord (w : UInt32) (rest : Bytes) : wordAt 0 (ofWord w ++ rest) = w := by
  have front : (ofWord w ++ rest).take 4 = ofWord w := by
    apply List.take_left'
    exact length_ofWord w
  have value : (ofWord w).toNat = w.toNat := by
    have small : w.toNat < Nat.pow 256 4 := w.toNat_lt
    simp only [ofWord, toNat_ofNat, Nat.mod_eq_of_lt small]
  simp only [wordAt, List.drop_zero, front, value, UInt32.ofNat_toNat]

theorem ofWord_wordAt {bytes : Bytes} (room : 4 ≤ bytes.length) :
    ofWord (wordAt 0 bytes) = bytes.take 4 := by
  have width : (bytes.take 4).length = 4 := List.length_take_of_le room
  have small : toNat (bytes.take 4) < UInt32.size := by
    have := toNat_lt (bytes.take 4)
    rwa [width] at this
  have value : (wordAt 0 bytes).toNat = toNat (bytes.take 4) := by
    simp only [wordAt, List.drop_zero]
    exact UInt32.toNat_ofNat_of_lt' small
  calc ofWord (wordAt 0 bytes)
    _ = ofNat 4 (toNat (bytes.take 4)) := by rw [ofWord, value]
    _ = ofNat (bytes.take 4).length (toNat (bytes.take 4)) := by rw [width]
    _ = bytes.take 4 := ofNat_toNat (bytes.take 4)

/-- The first `n` words. -/
def words : Nat → Bytes → List UInt32
  | 0, _ => []
  | n + 1, bytes => wordAt 0 bytes :: words n (bytes.drop 4)

theorem words_flatMap (ws : List UInt32) (rest : Bytes) :
    words ws.length (ws.flatMap ofWord ++ rest) = ws := by
  induction ws with
  | nil => rfl
  | cons w ws ih =>
    have after : (ofWord w ++ (ws.flatMap ofWord ++ rest)).drop 4 = ws.flatMap ofWord ++ rest := by
      apply List.drop_left'
      exact length_ofWord w
    simp only [List.flatMap_cons, List.append_assoc, List.length_cons, words, wordAt_ofWord, after, ih]

theorem flatMap_words {n : Nat} {bytes : Bytes} (room : 4 * n ≤ bytes.length) :
    (words n bytes).flatMap ofWord = bytes.take (4 * n) := by
  induction n generalizing bytes with
  | zero => rfl
  | succ n ih =>
    have front : 4 ≤ bytes.length := by omega
    have back : 4 * n ≤ (bytes.drop 4).length := by
      simp only [List.length_drop]
      omega
    calc (words (n + 1) bytes).flatMap ofWord
      _ = bytes.take 4 ++ (bytes.drop 4).take (4 * n) := by
        simp only [words, List.flatMap_cons, ofWord_wordAt front, ih back]
      _ = bytes.take (4 * (n + 1)) := by
        rw [← List.take_add]
        congr 1
        omega

end Bytes

namespace Header

/-- The words in the order in which they are written. -/
def words (h : Header) : List UInt32 := [h.magic, h.version, h.total, h.command] ++ h.lengths

theorem ext_words {h h' : Header} (same : h.words = h'.words) : h = h' := by
  cases h
  cases h'
  simp only [words, List.cons_append, List.nil_append, List.cons.injEq] at same
  obtain ⟨rfl, rfl, rfl, rfl, rfl⟩ := same
  rfl

theorem length_words (h : Header) : h.words.length = 8 := by
  simp [words, h.four]

@[simp] theorem length_encode (h : Header) : h.encode.length = size := by
  have counted : ∀ ws : List UInt32, (ws.flatMap Bytes.ofWord).length = 4 * ws.length := by
    intro ws
    simp [Nat.mul_comm]
  exact (counted h.words).trans (by rw [length_words]; rfl)

theorem words_of_decode {bytes : Bytes} {h : Header} (read : decode bytes = .ok h) :
    h.words = bytes.words 8 := by
  simp only [decode] at read
  split_ifs at read
  obtain rfl := Except.ok.inj read
  simp [words, Bytes.words, Bytes.wordAt, List.drop_drop]

theorem words_of_encode {bytes : Bytes} {h : Header} (front : h.encode <+: bytes) :
    h.words = bytes.words 8 := by
  obtain ⟨rest, rfl⟩ := front
  have read := Bytes.words_flatMap h.words rest
  rw [length_words] at read
  exact read.symm

theorem encode_of_words {bytes : Bytes} {h : Header} (room : size ≤ bytes.length)
    (same : h.words = bytes.words 8) : h.encode = bytes.take size := by
  calc h.encode
    _ = h.words.flatMap Bytes.ofWord := rfl
    _ = (bytes.words 8).flatMap Bytes.ofWord := by rw [same]
    _ = bytes.take size := Bytes.flatMap_words room

/-- The bytes behind the header are not looked at. -/
theorem decode_eq_ok_iff {bytes : Bytes} {h : Header} :
    decode bytes = .ok h ↔
      h.magic = magicWord ∧ h.version = currentVersion ∧ h.encode <+: bytes := by
  constructor
  · intro read
    have same := words_of_decode read
    simp only [decode] at read
    split_ifs at read with short magic version
    have written := encode_of_words (Nat.le_of_not_lt short) same
    obtain rfl := Except.ok.inj read
    refine ⟨not_not.1 magic, not_not.1 version, ?_⟩
    rw [written]
    exact List.take_prefix size bytes
  · rintro ⟨magic, version, front⟩
    have same := words_of_encode front
    have room : ¬ bytes.length < size := by
      have := front.length_le
      simpa using this
    have first : bytes.wordAt 0 = magicWord := by
      have := congrArg (·[0]?) same
      simpa [words, Bytes.words, magic] using this.symm
    have second : bytes.wordAt 4 = currentVersion := by
      have := congrArg (·[1]?) same
      simpa [words, Bytes.words, Bytes.wordAt, version] using this.symm
    obtain ⟨h', read⟩ : ∃ h', decode bytes = .ok h' := by
      simp [decode, room, first, second]
    have : h' = h := ext_words ((words_of_decode read).trans same.symm)
    rwa [this] at read

end Header

end LockManager
