import HwMon.Lib.X64

/-!
# Bytes in the memory of a processor

Stores of any number of bytes, of which the qwords of the stack are a case.
Addresses wrap around, so a distance is a difference of addresses.
-/

namespace HwMon
set_option autoImplicit false

def loadBytes (m : UInt64 → UInt8) (a : UInt64) (n : Nat) : List UInt8 :=
  (List.range n).map fun i => m (a + UInt64.ofNat i)

def storeBytes (m : UInt64 → UInt8) (a : UInt64) (l : List UInt8) : UInt64 → UInt8 :=
  fun x => if (x - a).toNat < l.length then l.getD (x - a).toNat 0 else m x

/-- The `k` bytes from `b` share none with the `n` bytes from `a`. -/
structure Apart (a : UInt64) (n : Nat) (b : UInt64) (k : Nat) : Prop where
  above : n ≤ (b - a).toNat
  below : (b - a).toNat + k ≤ 2 ^ 64

section Bytes
variable {m : UInt64 → UInt8} {a b x : UInt64} {l r : List UInt8}

theorem storeQword_eq (m : UInt64 → UInt8) (a v : UInt64) :
    storeQword m a v = storeBytes m a (leBytes 8 v.toNat) := by
  funext x
  rw [storeQword, storeBytes, leBytes_length]

theorem loadBytes_length (n : Nat) : (loadBytes m a n).length = n := by
  rw [loadBytes, List.length_map, List.length_range]

theorem loadBytes_congr {m' : UInt64 → UInt8} {n : Nat}
    (h : ∀ i < n, m (a + UInt64.ofNat i) = m' (a + UInt64.ofNat i)) :
    loadBytes m a n = loadBytes m' a n := by
  apply List.map_congr_left
  intro i hi
  exact h i (List.mem_range.mp hi)

theorem loadQword_congr {m' : UInt64 → UInt8}
    (h : ∀ i < 8, m (a + UInt64.ofNat i) = m' (a + UInt64.ofNat i)) :
    loadQword m a = loadQword m' a :=
  congrArg (fun l => UInt64.ofNat (leNat l)) (loadBytes_congr h)

theorem storeBytes_other (h : l.length ≤ (x - a).toNat) : storeBytes m a l x = m x :=
  if_neg (Nat.not_lt.mpr h)

theorem storeBytes_apart {k i : Nat} (h : Apart a l.length b k) (hi : i < k) :
    storeBytes m a l (b + UInt64.ofNat i) = m (b + UInt64.ofNat i) := by
  obtain ⟨habove, hbelow⟩ := h
  apply storeBytes_other
  rw [add_ofNat_sub_toNat (by omega)]
  omega

theorem loadBytes_storeBytes (m : UInt64 → UInt8) (a : UInt64) (h : l.length ≤ 2 ^ 64) :
    loadBytes (storeBytes m a l) a l.length = l := by
  apply List.ext_getElem
  · rw [loadBytes_length]
  · intro i hi hlen
    have hself : (a - a).toNat = 0 := by
      rw [UInt64.sub_self]
      rfl
    have hindex : (a + UInt64.ofNat i - a).toNat = i := by
      rw [add_ofNat_sub_toNat (by omega), hself, Nat.zero_add]
    simp only [loadBytes, List.getElem_map, List.getElem_range, storeBytes, hindex, if_pos hlen]
    exact List.getD_eq_getElem _ _ _

/-- The distance from a later start. -/
theorem sub_add_toNat {n : Nat} (hn : n < 2 ^ 64) :
    (x - (a + UInt64.ofNat n)).toNat =
      if n ≤ (x - a).toNat then (x - a).toNat - n else (x - a).toNat + (2 ^ 64 - n) := by
  have hshift : x - (a + UInt64.ofNat n) = (x - a) - UInt64.ofNat n := by
    rw [UInt64.sub_eq_add_neg, UInt64.sub_eq_add_neg, UInt64.sub_eq_add_neg, UInt64.neg_add,
      UInt64.sub_eq_add_neg, UInt64.add_assoc]
  have hoff : (UInt64.ofNat n).toNat = n := by
    rw [UInt64.toNat_ofNat', Nat.mod_eq_of_lt hn]
  have hlt := (x - a).toNat_lt
  rw [hshift, UInt64.toNat_sub, hoff]
  split
  · rename_i hle
    omega
  · rename_i hle
    omega

/-- Two stores in a row are one. -/
theorem storeBytes_append (hlen : l.length + r.length < 2 ^ 64) :
    storeBytes (storeBytes m a l) (a + UInt64.ofNat l.length) r = storeBytes m a (l ++ r) := by
  funext x
  have hlt := (x - a).toNat_lt
  simp only [storeBytes, sub_add_toNat (a := a) (x := x) (n := l.length) (by omega),
    List.length_append]
  by_cases hfront : (x - a).toNat < l.length
  · rw [if_neg (by omega : ¬l.length ≤ (x - a).toNat), if_neg (by omega), if_pos hfront,
      if_pos (by omega), List.getD_append _ _ _ _ hfront]
  · rw [if_pos (by omega : l.length ≤ (x - a).toNat)]
    by_cases hback : (x - a).toNat - l.length < r.length
    · rw [if_pos hback, if_pos (by omega), List.getD_append_right _ _ _ _ (by omega)]
    · rw [if_neg hback, if_neg hfront, if_neg (by omega)]

end Bytes
end HwMon
