/-! Addresses, offsets and sizes are 64-bit words. Where a word leaves its range the checked sum and
difference are absent; the plain ones wrap. -/

namespace FunctionSlice

abbrev Word := UInt64

abbrev Bytes := List UInt8

namespace Word

def sub? (a b : Word) : Option Word := if b ≤ a then some (a - b) else none

def add? (a b : Word) : Option Word :=
  if a.toNat + b.toNat < 0x1_0000_0000_0000_0000 then some (a + b) else none

theorem sub?_eq_some_iff {a b c : Word} : sub? a b = some c ↔ b.toNat + c.toNat = a.toNat := by
  have hc := c.toNat_lt
  rw [sub?]
  split
  · rename_i h
    have := UInt64.le_iff_toNat_le.1 h
    rw [Option.some.injEq, ← UInt64.toNat_inj, UInt64.toNat_sub_of_le _ _ h]
    omega
  · rename_i h
    have := mt UInt64.le_iff_toNat_le.2 h
    simp only [reduceCtorEq, false_iff]
    omega

theorem add?_eq_some_iff {a b c : Word} : add? a b = some c ↔ a.toNat + b.toNat = c.toNat := by
  have hc := c.toNat_lt
  rw [add?]
  split
  · rename_i h
    rw [Option.some.injEq, ← UInt64.toNat_inj, UInt64.toNat_add]
    omega
  · simp only [reduceCtorEq, false_iff]
    omega

theorem toNat_ofNat {n : Nat} (h : n < 0x1_0000_0000_0000_0000) : (UInt64.ofNat n).toNat = n :=
  UInt64.toNat_ofNat_of_lt' h

theorem toNat_ne_zero {a : Word} (h : a ≠ 0) : a.toNat ≠ 0 := fun hz => h (UInt64.toNat_inj.1 hz)

theorem toNat_min (a b : Word) : (min a b).toNat = min a.toNat b.toNat := by
  change (if a ≤ b then a else b).toNat = _
  by_cases h : a ≤ b
  · rw [if_pos h]
    exact (Nat.min_eq_left (UInt64.le_iff_toNat_le.1 h)).symm
  · rw [if_neg h]
    have := mt UInt64.le_iff_toNat_le.2 h
    exact (Nat.min_eq_right (by omega)).symm

end Word

end FunctionSlice
