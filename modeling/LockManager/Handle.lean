import LockManager.Hex

set_option autoImplicit false

/-!
Handles name locks to the outside: a slot number and the generation of the slot at the time of
issue. A handle travels as one 64-bit cookie.
-/

namespace LockManager

structure Handle where
  index : UInt32
  generation : UInt32
  deriving DecidableEq, Repr, Inhabited

namespace Handle

/-- Generation in the upper half, slot in the lower. -/
def cookie (h : Handle) : UInt64 :=
  UInt64.ofNat (h.generation.toNat * UInt32.size + h.index.toNat)

def ofCookie (c : UInt64) : Handle :=
  ⟨UInt32.ofNat (c.toNat % UInt32.size), UInt32.ofNat (c.toNat / UInt32.size)⟩

theorem toNat_cookie (h : Handle) :
    h.cookie.toNat = h.generation.toNat * UInt32.size + h.index.toNat := by
  have := h.generation.toNat_lt
  have := h.index.toNat_lt
  simp only [cookie, UInt32.size, UInt64.toNat_ofNat']
  omega

@[simp] theorem ofCookie_cookie (h : Handle) : ofCookie h.cookie = h := by
  have hg := h.generation.toNat_lt
  have hi := h.index.toNat_lt
  have hm : (h.generation.toNat * UInt32.size + h.index.toNat) % UInt32.size = h.index.toNat := by
    simp only [UInt32.size]
    omega
  have hd :
      (h.generation.toNat * UInt32.size + h.index.toNat) / UInt32.size = h.generation.toNat := by
    simp only [UInt32.size]
    omega
  simp only [ofCookie, toNat_cookie, hm, hd, UInt32.ofNat_toNat]

@[simp] theorem cookie_ofCookie (c : UInt64) : (ofCookie c).cookie = c := by
  have hc := c.toNat_lt
  have hd : c.toNat / UInt32.size < UInt32.size := by
    simp only [UInt32.size]
    omega
  have hm : c.toNat % UInt32.size < UInt32.size := Nat.mod_lt _ (by decide)
  apply UInt64.toNat_inj.1
  simp only [toNat_cookie, ofCookie, UInt32.toNat_ofNat', Nat.mod_eq_of_lt hd, Nat.mod_eq_of_lt hm]
  exact Nat.div_add_mod' _ _

def display (h : Handle) : String := hex h.cookie.toNat

end Handle

end LockManager
