import HwMon.Hv.Setup

/-!
# Segment descriptors

Access rights and base of a GDT entry, as the architecture lays it out, against
`ComputeSegmentAccessRights` and `ComputeSegmentBase`. The two functions take a
selector for null only if it is zero.
-/

namespace HwMon
set_option autoImplicit false

/-- `n` bytes from a GDT entry on, as a number. -/
def gdtEntry (e : HvEnv) (gdtBase : UInt64) (index : UInt16) (n : Nat) : Nat :=
  leNat ((List.range n).map fun i => e.memory (gdtBase + 8 * index.toUInt64 + UInt64.ofNat i))

/-- The access-rights word of a descriptor: type, S, DPL and P in bits 7..0, and AVL, L, D/B and
G in bits 15..12. -/
def accessRightsOf (descriptor : Nat) : Nat :=
  descriptor / 2 ^ 40 % 2 ^ 8 + 2 ^ 12 * (descriptor / 2 ^ 52 % 2 ^ 4)

/-- The base in a descriptor of 8 bytes or, in a system descriptor, of 16 bytes. -/
def baseOf (descriptor : Nat) : Nat :=
  descriptor / 2 ^ 16 % 2 ^ 24 + 2 ^ 24 * (descriptor / 2 ^ 56 % 2 ^ 8) +
    2 ^ 32 * (descriptor / 2 ^ 64 % 2 ^ 32)

section Masks
variable (selector : UInt16)

/-- Clearing the three low bits leaves eight times the index. -/
theorem clearedSelector_toNat : (selector &&& ~~~(0x7 : UInt16)).toNat =
    2 ^ 3 * (selector.toNat / 2 ^ 3) := by
  have hmask : (~~~(0x7 : UInt16)).toNat = (2 ^ 13 - 1) * 2 ^ 3 := by decide
  have hlt := selector.toNat_lt
  rw [UInt16.toNat_and, hmask, and_mask, Nat.mod_eq_of_lt (by omega)]

theorem index_toNat : (selector >>> 3).toNat = selector.toNat / 2 ^ 3 := by
  rw [UInt16.toNat_shiftRight, Nat.shiftRight_eq_div_pow]
  rfl

theorem index_eq_zero_iff : selector >>> 3 = 0 ↔ selector.toNat < 8 := by
  rw [← UInt16.toNat_inj, index_toNat]
  have hzero : (0 : UInt16).toNat = 0 := rfl
  omega

/-- The descriptor that the code looks at is that of the selector's index. -/
theorem descriptorAddress_eq (gdtBase : UInt64) :
    descriptorAddress gdtBase selector =
      gdtBase + (8 : UInt64) * UInt16.toUInt64 (selector >>> 3) := by
  have hlt := selector.toNat_lt
  have hentry : (selector &&& ~~~(0x7 : UInt16)).toUInt64 =
      (8 : UInt64) * UInt16.toUInt64 (selector >>> 3) := by
    rw [← UInt64.toNat_inj, UInt64.toNat_mul, UInt16.toNat_toUInt64, UInt16.toNat_toUInt64,
      clearedSelector_toNat, index_toNat]
    have height : (8 : UInt64).toNat = 2 ^ 3 := rfl
    rw [height, Nat.mod_eq_of_lt (by omega)]
  exact congrArg (gdtBase + ·) hentry

end Masks

section Bytes

theorem shiftByte_toNat (x : UInt8) (k : UInt64) (hk : k.toNat ≤ 56) :
    (x.toUInt64 <<< k).toNat = x.toNat * 2 ^ k.toNat := by
  have hx := x.toNat_lt
  have hpow : 2 ^ 8 * 2 ^ k.toNat ≤ 2 ^ 64 := by
    rw [← Nat.pow_add]
    exact Nat.pow_le_pow_right Nat.two_pos (by omega)
  have hfits : x.toNat * 2 ^ k.toNat < 2 ^ 64 :=
    Nat.lt_of_lt_of_le (Nat.mul_lt_mul_of_pos_right hx (Nat.two_pow_pos _)) hpow
  have hmod : k.toNat % 64 = k.toNat := Nat.mod_eq_of_lt (by omega)
  rw [UInt64.toNat_shiftLeft, UInt8.toNat_toUInt64, hmod, Nat.shiftLeft_eq, Nat.mod_eq_of_lt hfits]

/-- Four bytes put together by shifts. -/
theorem orBytes_toNat (a b c d : UInt8) :
    (a.toUInt64 ||| (b.toUInt64 <<< 8) ||| (c.toUInt64 <<< 16) ||| (d.toUInt64 <<< 24)).toNat =
      leNat [a, b, c, d] := by
  have ha := a.toNat_lt
  have hb := b.toNat_lt
  have hc := c.toNat_lt
  have hb' := shiftByte_toNat b 8 (by decide)
  have hc' := shiftByte_toNat c 16 (by decide)
  have hd' := shiftByte_toNat d 24 (by decide)
  have h8 : (8 : UInt64).toNat = 8 := rfl
  have h16 : (16 : UInt64).toNat = 16 := rfl
  have h24 : (24 : UInt64).toNat = 24 := rfl
  rw [h8] at hb'
  rw [h16] at hc'
  rw [h24] at hd'
  have hlow : a.toNat ||| b.toNat * 2 ^ 8 = b.toNat * 2 ^ 8 + a.toNat := by
    rw [Nat.or_comm]
    exact or_eq_add (i := 8) (by omega) (by omega)
  have hmiddle : (b.toNat * 2 ^ 8 + a.toNat) ||| c.toNat * 2 ^ 16 =
      c.toNat * 2 ^ 16 + (b.toNat * 2 ^ 8 + a.toNat) := by
    rw [Nat.or_comm]
    exact or_eq_add (i := 16) (by omega) (by omega)
  have hhigh : (c.toNat * 2 ^ 16 + (b.toNat * 2 ^ 8 + a.toNat)) ||| d.toNat * 2 ^ 24 =
      d.toNat * 2 ^ 24 + (c.toNat * 2 ^ 16 + (b.toNat * 2 ^ 8 + a.toNat)) := by
    rw [Nat.or_comm]
    exact or_eq_add (i := 24) (by omega) (by omega)
  rw [UInt64.toNat_or, UInt64.toNat_or, UInt64.toNat_or, UInt8.toNat_toUInt64, hb', hc', hd',
    hlow, hmiddle, hhigh]
  simp only [leNat]
  omega

/-- The upper half of a base above four bytes. -/
theorem orHigh_toNat {base : UInt64} (high : UInt32) {l : List UInt8} (hlen : l.length = 4)
    (hbase : base.toNat = leNat l) :
    (base ||| (high.toUInt64 <<< 32)).toNat = leNat l + 2 ^ 32 * high.toNat := by
  have hlt := leNat_lt l
  have hhigh := high.toNat_lt
  have hshift : (high.toUInt64 <<< 32).toNat = high.toNat * 2 ^ 32 := by
    have h32 : (32 : UInt64).toNat % 64 = 32 := rfl
    rw [UInt64.toNat_shiftLeft, UInt32.toNat_toUInt64, h32, Nat.shiftLeft_eq,
      Nat.mod_eq_of_lt (by omega)]
  rw [hlen] at hlt
  rw [UInt64.toNat_or, hbase, hshift, Nat.or_comm, Nat.add_comm, Nat.mul_comm (2 ^ 32)]
  exact or_eq_add (i := 32) (by omega) hlt

/-- The access byte and the nibble above the limit, put together. -/
theorem orRights_toNat (a b : UInt8) :
    (a.toUInt32 ||| ((b.toUInt32 &&& 0xF0) <<< 8)).toNat =
      a.toNat + 2 ^ 12 * (b.toNat / 2 ^ 4) := by
  have ha := a.toNat_lt
  have hb := b.toNat_lt
  have hnibble : ((b.toUInt32 &&& 0xF0) <<< 8).toNat = 2 ^ 12 * (b.toNat / 2 ^ 4) :=
    forall_byte (P := fun b => ((b.toUInt32 &&& 0xF0) <<< 8).toNat = 2 ^ 12 * (b.toNat / 2 ^ 4))
      (by set_option maxRecDepth 4000 in decide) b
  rw [UInt32.toNat_or, UInt8.toNat_toUInt32, hnibble, Nat.or_comm, Nat.add_comm]
  exact or_eq_add (i := 12) (by omega) (by omega)

theorem accessRightsOf_bytes (b0 b1 b2 b3 b4 b5 b6 b7 : UInt8) :
    accessRightsOf (leNat [b0, b1, b2, b3, b4, b5, b6, b7]) =
      b5.toNat + 2 ^ 12 * (b6.toNat / 2 ^ 4) := by
  have hrest := leNat_drop (l := [b0, b1, b2, b3, b4, b5, b6, b7]) (k := 5) (by simp)
  have hpow : 256 ^ 5 = 2 ^ 40 := by decide
  have h5 := b5.toNat_lt
  have h6 := b6.toNat_lt
  rw [hpow] at hrest
  simp only [List.drop_succ_cons, List.drop_zero] at hrest
  have hnibble : 2 ^ 52 = 2 ^ 40 * 2 ^ 12 := by decide
  rw [accessRightsOf, hnibble, ← Nat.div_div_eq_div_mul, ← hrest]
  simp only [leNat]
  omega

/-- The bytes of a base: four in the first eight of the descriptor and what follows them. -/
theorem baseOf_bytes (b0 b1 b2 b3 b4 b5 b6 b7 : UInt8) (high : List UInt8) :
    baseOf (leNat ([b0, b1, b2, b3, b4, b5, b6, b7] ++ high)) =
      leNat [b2, b3, b4, b7] + 2 ^ 32 * (leNat high % 2 ^ 32) := by
  have hlow := leNat_drop (l := [b0, b1, b2, b3, b4, b5, b6, b7] ++ high) (k := 2) (by simp)
  have hthree := leNat_take (l := [b2, b3, b4, b5, b6, b7] ++ high) (k := 3) (by simp)
  have hseven := leNat_drop (l := [b0, b1, b2, b3, b4, b5, b6, b7] ++ high) (k := 7) (by simp)
  have hone := leNat_take (l := [b7] ++ high) (k := 1) (by simp)
  have height := leNat_drop (l := [b0, b1, b2, b3, b4, b5, b6, b7] ++ high) (k := 8) (by simp)
  simp only [List.cons_append, List.nil_append, List.drop_succ_cons, List.drop_zero,
    List.take_succ_cons, List.take_zero] at hlow hthree hseven hone height ⊢
  have h16 : 2 ^ 16 = 256 ^ 2 := by decide
  have h24 : 2 ^ 24 = 256 ^ 3 := by decide
  have h56 : 2 ^ 56 = 256 ^ 7 := by decide
  have h8 : 2 ^ 8 = 256 ^ 1 := by decide
  have h64 : 2 ^ 64 = 256 ^ 8 := by decide
  rw [baseOf, h16, h24, h56, h8, h64, ← hlow, ← hthree, ← hseven, ← hone, ← height]
  simp only [leNat]
  omega

end Bytes

section Entries
variable (e : HvEnv) (gdtBase : UInt64) (selector : UInt16)

theorem gdtEntry_eq (n : Nat) : gdtEntry e gdtBase (selector >>> 3) n =
    leNat ((List.range n).map fun i =>
      e.memory (descriptorAddress gdtBase selector + UInt64.ofNat i)) := by
  rw [descriptorAddress_eq]
  rfl

theorem accessRights_toNat (h : selector ≠ 0) :
    (computeSegmentAccessRights e gdtBase selector).toNat =
      accessRightsOf (gdtEntry e gdtBase (selector >>> 3) 8) := by
  rw [computeSegmentAccessRights, if_neg h, gdtEntry_eq]
  refine (orRights_toNat _ _).trans ?_
  exact (accessRightsOf_bytes _ _ _ _ _ _ _ _).symm

theorem dword_toNat (address : UInt64) : (e.dword address).toNat =
    leNat [e.memory address, e.memory (address + 1), e.memory (address + 2),
      e.memory (address + 3)] := by
  have h0 := (e.memory address).toNat_lt
  have h1 := (e.memory (address + 1)).toNat_lt
  have h2 := (e.memory (address + 2)).toNat_lt
  have h3 := (e.memory (address + 3)).toNat_lt
  rw [HvEnv.dword, UInt32.toNat_ofNat']
  simp only [leNat]
  omega

/-- The size of the descriptor that `ComputeSegmentBase` reads. -/
def descriptorSize (isTr : Bool) : Nat := if isTr = true then 16 else 8

theorem segmentBase_toNat (h : selector ≠ 0) (isTr : Bool) :
    (computeSegmentBase e gdtBase selector isTr).toNat =
      baseOf (gdtEntry e gdtBase (selector >>> 3) (descriptorSize isTr)) := by
  rw [computeSegmentBase, if_neg h, gdtEntry_eq]
  generalize descriptorAddress gdtBase selector = d
  have hlow := orBytes_toNat (e.memory (d + 2)) (e.memory (d + 3)) (e.memory (d + 4))
    (e.memory (d + 7))
  cases isTr with
  | false =>
    refine hlow.trans ?_
    exact (baseOf_bytes _ _ _ _ _ _ _ _ []).symm
  | true =>
    have hbytes : (List.range 16).map (fun i => e.memory (d + UInt64.ofNat i)) =
        [e.memory (d + 0), e.memory (d + 1), e.memory (d + 2), e.memory (d + 3),
          e.memory (d + 4), e.memory (d + 5), e.memory (d + 6), e.memory (d + 7)] ++
        [e.memory (d + 8), e.memory (d + 9), e.memory (d + 10), e.memory (d + 11),
          e.memory (d + 12), e.memory (d + 13), e.memory (d + 14), e.memory (d + 15)] := rfl
    have hhigh := leNat_take (l := [e.memory (d + 8), e.memory (d + 9), e.memory (d + 10),
      e.memory (d + 11), e.memory (d + 12), e.memory (d + 13), e.memory (d + 14),
      e.memory (d + 15)]) (k := 4) (by simp)
    have hpow : 256 ^ 4 = 2 ^ 32 := by decide
    rw [hpow] at hhigh
    have hsize : descriptorSize true = 16 := rfl
    rw [hsize, hbytes, baseOf_bytes, ← hhigh]
    refine (orHigh_toNat _ rfl hlow).trans ?_
    rw [dword_toNat, UInt64.add_assoc d, UInt64.add_assoc d, UInt64.add_assoc d]
    rfl

end Entries
end HwMon
