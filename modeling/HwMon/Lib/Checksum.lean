import HwMon.Lib.Bytes

/-!
# Byte sums

A block of bytes is valid if its bytes sum to zero modulo 256. A valid block
is no longer valid after any one of its bytes is changed.
-/

namespace HwMon
set_option autoImplicit false

def byteSum (l : List UInt8) : Nat := (l.map UInt8.toNat).sum

theorem byteSum_cons (b : UInt8) (l : List UInt8) : byteSum (b :: l) = b.toNat + byteSum l := by
  rw [byteSum, List.map_cons, List.sum_cons, byteSum]

theorem byteSum_append (l r : List UInt8) : byteSum (l ++ r) = byteSum l + byteSum r := by
  rw [byteSum, List.map_append, List.sum_append, byteSum, byteSum]

/-- The byte that makes the sum of a block zero, between the bytes before and behind it. -/
theorem byteSum_closed (front back : List UInt8) :
    byteSum (front ++ UInt8.ofNat (256 - (byteSum front + byteSum back) % 256) :: back) % 256 =
      0 := by
  rw [byteSum_append, byteSum_cons, UInt8.toNat_ofNat']
  omega

section Change
variable {m : Mem} {p n q : Nat}

/-- The memory with one byte changed. -/
def setByte (m : Mem) (q : Nat) (b : UInt8) : Mem := fun i => if i = q then b else m i

theorem setByte_self (b : UInt8) : setByte m q b q = b := if_pos rfl

theorem setByte_of_ne {i : Nat} (h : i ≠ q) (b : UInt8) : setByte m q b i = m i := if_neg h

theorem segment_setByte (h : q < p ∨ p + n ≤ q) (b : UInt8) :
    segment (setByte m q b) p n = segment m p n := by
  apply segment_congr
  intro i hlo hhi
  exact setByte_of_ne (by omega) b

/-- Sums before and after a change inside the block. -/
theorem byteSum_setByte (hlo : p ≤ q) (hhi : q < p + n) (b : UInt8) :
    byteSum (segment (setByte m q b) p n) + (m q).toNat = byteSum (segment m p n) + b.toNat := by
  obtain ⟨d, rfl⟩ := Nat.exists_eq_add_of_le hlo
  obtain ⟨k, hk⟩ := Nat.exists_eq_add_of_lt (Nat.add_lt_add_iff_left.mp hhi)
  have hn : n = d + (1 + k) := by omega
  rw [hn, segment_add, segment_add, segment_add m, segment_add m, byteSum_append, byteSum_append,
    byteSum_append, byteSum_append, segment_setByte (Or.inr (Nat.le_refl _)),
    segment_setByte (p := p + d + 1) (Or.inl (Nat.lt_succ_self _))]
  have hone : ∀ m' : Mem, byteSum (segment m' (p + d) 1) = (m' (p + d)).toNat := fun m' =>
    Nat.add_zero _
  rw [hone, hone, setByte_self]
  omega

theorem byteSum_setByte_ne (hlo : p ≤ q) (hhi : q < p + n) {b : UInt8} (hb : b ≠ m q)
    (h : byteSum (segment m p n) % 256 = 0) :
    byteSum (segment (setByte m q b) p n) % 256 ≠ 0 := by
  intro hsum
  have hchange := byteSum_setByte (m := m) hlo hhi b
  have hold := (m q).toNat_lt
  have hnew := b.toNat_lt
  apply hb
  apply UInt8.toNat_inj.mp
  omega

end Change
end HwMon
