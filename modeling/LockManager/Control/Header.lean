import LockManager.Bytes
import LockManager.Control.Error

set_option autoImplicit false

/-!
The header of a packed request: eight words, the last four of which are the lengths of the buffers
that follow. Each buffer is filled up with zeros to a multiple of eight bytes.
-/

namespace LockManager

structure Header where
  magic : UInt32
  version : UInt32
  /-- Length of the whole request. -/
  total : UInt32
  command : UInt32
  lengths : List UInt32
  four : lengths.length = 4 := by rfl

namespace Header

def magicWord : UInt32 := 0x434b4c43

def currentVersion : UInt32 := 1

def size : Nat := 32

def slotCount : Nat := 4

/-- The least multiple of eight that is not less than `n`. -/
def padded (n : Nat) : Nat := (n + 7) / 8 * 8

def encode (h : Header) : Bytes :=
  ([h.magic, h.version, h.total, h.command] ++ h.lengths).flatMap Bytes.ofWord

def decode (bytes : Bytes) : Except ControlError Header :=
  if bytes.length < size then .error (.truncated size bytes.length)
  else if bytes.wordAt 0 ≠ magicWord then .error (.badMagic (bytes.wordAt 0))
  else if bytes.wordAt 4 ≠ currentVersion then .error (.badVersion (bytes.wordAt 4))
  else
    .ok
      { magic := bytes.wordAt 0
        version := bytes.wordAt 4
        total := bytes.wordAt 8
        command := bytes.wordAt 12
        lengths := [bytes.wordAt 16, bytes.wordAt 20, bytes.wordAt 24, bytes.wordAt 28] }

/-- Length of the whole request by the lengths of its buffers. -/
def expectedTotal (h : Header) : Nat :=
  h.lengths.foldr (fun n total => padded n.toNat + total) size

end Header

end LockManager
