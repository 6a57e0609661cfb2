import HwMon.Lib.Probe
import Mathlib.Algebra.Order.Ring.Nat
import Mathlib.Data.List.TakeWhile

/-!
# Byte memories

A byte buffer is read through a memory `Nat → UInt8`; `segment m p n` is the
list of the `n` bytes from address `p`. The C reading primitives (`strnlen`,
`memcpy` into an object or an integer) are given with their values on segments
and with the range of addresses that they touch.
-/

namespace HwMon
set_option autoImplicit false

abbrev Mem := Nat → UInt8

abbrev ByteProbe (ω α : Type) := Probe Nat (fun _ => UInt8) ω α

/-- The memory that holds a buffer from address zero. -/
def memOf (raw : List UInt8) : Mem := fun i => raw.getD i 0

def segment (m : Mem) (p : Nat) : Nat → List UInt8
  | 0 => []
  | n + 1 => m p :: segment m (p + 1) n

def leNat : List UInt8 → Nat
  | [] => 0
  | b :: bs => b.toNat + 256 * leNat bs

theorem leNat_lt (l : List UInt8) : leNat l < 256 ^ l.length := by
  induction l with
  | nil => exact Nat.one_pos
  | cons b l ih =>
    have hb := b.toNat_lt
    rw [leNat, List.length_cons, Nat.pow_succ']
    omega

theorem leNat_append (xs ys : List UInt8) :
    leNat (xs ++ ys) = leNat xs + 256 ^ xs.length * leNat ys := by
  induction xs with
  | nil => simp [leNat]
  | cons b xs ih =>
    rw [List.cons_append, leNat, ih, leNat, List.length_cons, Nat.pow_succ', Nat.mul_add,
      Nat.mul_assoc, Nat.add_assoc]

/-- The bytes from the `k`-th on are the quotient. -/
theorem leNat_drop {l : List UInt8} {k : Nat} (h : k ≤ l.length) :
    leNat (l.drop k) = leNat l / 256 ^ k := by
  have hlow := leNat_lt (l.take k)
  have hsplit := leNat_append (l.take k) (l.drop k)
  rw [List.take_append_drop, List.length_take_of_le h] at hsplit
  rw [List.length_take_of_le h] at hlow
  rw [hsplit, Nat.add_mul_div_left _ _ (Nat.pow_pos (by decide)), Nat.div_eq_of_lt hlow,
    Nat.zero_add]

/-- The `k` low bytes are the remainder. -/
theorem leNat_take {l : List UInt8} {k : Nat} (h : k ≤ l.length) :
    leNat (l.take k) = leNat l % 256 ^ k := by
  have hlow := leNat_lt (l.take k)
  have hsplit := leNat_append (l.take k) (l.drop k)
  rw [List.take_append_drop, List.length_take_of_le h] at hsplit
  rw [List.length_take_of_le h] at hlow
  rw [hsplit, Nat.add_mul_mod_self_left, Nat.mod_eq_of_lt hlow]

/-- The `k` low bytes of a number, least significant first. -/
def leBytes : Nat → Nat → List UInt8
  | 0, _ => []
  | k + 1, n => UInt8.ofNat n :: leBytes k (n / 256)

@[simp] theorem leBytes_length (k n : Nat) : (leBytes k n).length = k := by
  induction k generalizing n with
  | zero => rfl
  | succ k ih => rw [leBytes, List.length_cons, ih]

theorem leNat_leBytes (k n : Nat) : leNat (leBytes k n) = n % 256 ^ k := by
  induction k generalizing n with
  | zero => rw [Nat.pow_zero, Nat.mod_one]; rfl
  | succ k ih =>
    have hbyte : (UInt8.ofNat n).toNat = n % 256 := UInt8.toNat_ofNat'
    rw [leBytes, leNat, ih, hbyte, Nat.pow_succ', Nat.mod_mul]

/-- The `n` bytes of a record from offset `off`. -/
def fieldBytes (f : List UInt8) (off n : Nat) : List UInt8 := (f.drop off).take n

def fieldWord (f : List UInt8) (off : Nat) : UInt16 := UInt16.ofNat (leNat (fieldBytes f off 2))

def fieldDword (f : List UInt8) (off : Nat) : UInt32 := UInt32.ofNat (leNat (fieldBytes f off 4))

def fieldQword (f : List UInt8) (off : Nat) : UInt64 := UInt64.ofNat (leNat (fieldBytes f off 8))

theorem fieldBytes_length {f : List UInt8} {off n : Nat} (h : off + n ≤ f.length) :
    (fieldBytes f off n).length = n := by
  rw [fieldBytes, List.length_take, List.length_drop]
  omega

theorem getD_take (l : List UInt8) {i n : Nat} (h : i < n) : (l.take n).getD i 0 = l.getD i 0 := by
  rw [List.getD_eq_getElem?_getD, List.getElem?_take_of_lt h, ← List.getD_eq_getElem?_getD]

theorem getD_append_left {l : List UInt8} {i : Nat} (h : i < l.length) (r : List UInt8) :
    (l ++ r).getD i 0 = l.getD i 0 := by
  rw [List.getD_eq_getElem?_getD, List.getElem?_append_left h, ← List.getD_eq_getElem?_getD]

section Fields
variable {l : List UInt8} {off : Nat} (front back : List UInt8)

theorem fieldBytes_middle {x : List UInt8} {n : Nat} (hl : l = front ++ (x ++ back))
    (hoff : off = front.length) (hn : n = x.length) : fieldBytes l off n = x := by
  rw [fieldBytes, hl, hoff, hn, List.drop_left, List.take_left]

theorem getD_middle {b : UInt8} (hl : l = front ++ b :: back) (hoff : off = front.length) :
    l.getD off 0 = b := by
  rw [hl, hoff, List.getD_eq_getElem?_getD, List.getElem?_append_right (Nat.le_refl _),
    Nat.sub_self]
  rfl

theorem fieldWord_middle {x : UInt16} (hl : l = front ++ (leBytes 2 x.toNat ++ back))
    (hoff : off = front.length) : fieldWord l off = x := by
  have hx := x.toNat_lt
  rw [fieldWord, fieldBytes_middle front back hl hoff (leBytes_length _ _).symm, leNat_leBytes,
    Nat.mod_eq_of_lt (by omega), UInt16.ofNat_toNat]

theorem fieldDword_middle {x : UInt32} (hl : l = front ++ (leBytes 4 x.toNat ++ back))
    (hoff : off = front.length) : fieldDword l off = x := by
  have hx := x.toNat_lt
  rw [fieldDword, fieldBytes_middle front back hl hoff (leBytes_length _ _).symm, leNat_leBytes,
    Nat.mod_eq_of_lt (by omega), UInt32.ofNat_toNat]

theorem fieldQword_middle {x : UInt64} (hl : l = front ++ (leBytes 8 x.toNat ++ back))
    (hoff : off = front.length) : fieldQword l off = x := by
  have hx := x.toNat_lt
  rw [fieldQword, fieldBytes_middle front back hl hoff (leBytes_length _ _).symm, leNat_leBytes,
    Nat.mod_eq_of_lt (by omega), UInt64.ofNat_toNat]

end Fields

section Records
variable {α : Type} {encode : α → List UInt8} {w : Nat} (hw : ∀ a, (encode a).length = w)
include hw

theorem length_flatMap_encode (as : List α) : (as.flatMap encode).length = as.length * w := by
  induction as with
  | nil => exact (Nat.zero_mul _).symm
  | cons a as ih =>
    rw [List.flatMap_cons, List.length_append, hw, ih, List.length_cons, Nat.succ_mul, Nat.add_comm]

/-- Where a record stands in an array of records of one size. -/
theorem flatMap_encode_split {as : List α} {i : Nat} {a : α} (ha : as[i]? = some a) :
    ∃ front back, as.flatMap encode = front ++ (encode a ++ back) ∧ front.length = i * w := by
  obtain ⟨hi, rfl⟩ := List.getElem?_eq_some_iff.mp ha
  refine ⟨(as.take i).flatMap encode, (as.drop (i + 1)).flatMap encode, ?_, ?_⟩
  · rw [← List.flatMap_cons, ← List.drop_eq_getElem_cons hi, ← List.flatMap_append,
      List.take_append_drop]
  · rw [length_flatMap_encode hw, List.length_take_of_le (Nat.le_of_lt hi)]

end Records

/-- A property of bytes from its 256 instances. -/
theorem forall_byte {P : UInt8 → Prop} (h : ∀ n < 256, P (UInt8.ofNat n)) (x : UInt8) : P x := by
  have hx := h x.toNat x.toNat_lt
  rwa [UInt8.ofNat_toNat] at hx

/-- A mask of `w` bits from bit `i` on. -/
theorem and_mask (n w i : Nat) : n &&& ((2 ^ w - 1) * 2 ^ i) = 2 ^ i * (n / 2 ^ i % 2 ^ w) := by
  rw [Nat.mul_comm (2 ^ i)]
  apply Nat.eq_of_testBit_eq
  intro j
  rw [Nat.testBit_and, Nat.testBit_mul_two_pow, Nat.testBit_mul_two_pow,
    Nat.testBit_two_pow_sub_one, Nat.testBit_mod_two_pow, Nat.testBit_div_two_pow]
  by_cases hj : i ≤ j
  · rw [Nat.sub_add_cancel hj, decide_eq_true hj, Bool.true_and, Bool.true_and, Bool.and_comm]
  · rw [decide_eq_false hj, Bool.false_and, Bool.false_and, Bool.and_false]

/-- Bits that do not overlap are a sum. -/
theorem or_eq_add {a b i : Nat} (ha : 2 ^ i ∣ a) (hb : b < 2 ^ i) : a ||| b = a + b := by
  obtain ⟨c, rfl⟩ := ha
  exact (Nat.two_pow_add_eq_or_of_lt hb c).symm

section Segment
variable (m : Mem)

@[simp] theorem segment_zero (p : Nat) : segment m p 0 = [] := rfl

theorem segment_succ (p n : Nat) : segment m p (n + 1) = m p :: segment m (p + 1) n := rfl

@[simp] theorem segment_length (p n : Nat) : (segment m p n).length = n := by
  induction n generalizing p with
  | zero => rfl
  | succ n ih => simp [segment_succ, ih]

theorem segment_add (p a b : Nat) :
    segment m p (a + b) = segment m p a ++ segment m (p + a) b := by
  induction a generalizing p with
  | zero => simp
  | succ a ih =>
    have hnext : p + 1 + a = p + (a + 1) := by omega
    rw [Nat.succ_add, segment_succ, segment_succ, ih, List.cons_append, hnext]

theorem segment_getElem? (p n k : Nat) (hk : k < n) : (segment m p n)[k]? = some (m (p + k)) := by
  induction n generalizing p k with
  | zero => omega
  | succ n ih =>
    cases k with
    | zero => rfl
    | succ k =>
      have hnext : p + 1 + k = p + (k + 1) := by omega
      rw [segment_succ, List.getElem?_cons_succ, ih (p + 1) k (by omega), hnext]

theorem segment_getD (p n k : Nat) (hk : k < n) : (segment m p n).getD k 0 = m (p + k) := by
  rw [List.getD_eq_getElem?_getD, segment_getElem? m p n k hk]
  rfl

theorem segment_take (p n k : Nat) (hk : k ≤ n) : (segment m p n).take k = segment m p k := by
  obtain ⟨d, rfl⟩ := Nat.exists_eq_add_of_le hk
  rw [segment_add, List.take_left' (segment_length m p k)]

theorem segment_drop (p n k : Nat) (hk : k ≤ n) :
    (segment m p n).drop k = segment m (p + k) (n - k) := by
  obtain ⟨d, rfl⟩ := Nat.exists_eq_add_of_le hk
  rw [segment_add, List.drop_left' (segment_length m p k), Nat.add_sub_cancel_left]

theorem fieldBytes_segment (p : Nat) {k off n : Nat} (h : off + n ≤ k) :
    fieldBytes (segment m p k) off n = segment m (p + off) n := by
  rw [fieldBytes, segment_drop m p k off (by omega), segment_take m (p + off) (k - off) n (by omega)]

/-- A segment that splits as `xs ++ ys` splits at the matching address. -/
theorem segment_append {p n : Nat} {xs ys : List UInt8} (h : segment m p n = xs ++ ys) :
    segment m p xs.length = xs ∧ segment m (p + xs.length) ys.length = ys ∧
      n = xs.length + ys.length := by
  have hn : n = xs.length + ys.length := by
    simpa using congrArg List.length h
  rw [hn, segment_add] at h
  obtain ⟨hx, hy⟩ := List.append_inj h (by simp)
  exact ⟨hx, hy, hn⟩

/-- A segment that splits in three has the middle part at its offset. -/
theorem segment_middle {p n off k : Nat} (front back : List UInt8) {x : List UInt8}
    (h : segment m p n = front ++ (x ++ back)) (hoff : off = front.length) (hk : k = x.length) :
    segment m (p + off) k = x := by
  obtain ⟨-, hrest, -⟩ := segment_append m h
  rw [List.length_append] at hrest
  rw [hoff, hk]
  exact (segment_append m hrest).1

theorem byte_middle {p n off : Nat} (front back : List UInt8) {b : UInt8}
    (h : segment m p n = front ++ b :: back) (hoff : off = front.length) : m (p + off) = b := by
  have hone : segment m (p + off) 1 = [b] := segment_middle m front back h hoff rfl
  exact List.head_eq_of_cons_eq hone

theorem segment_congr {m m' : Mem} {p n : Nat} (h : ∀ i, p ≤ i → i < p + n → m i = m' i) :
    segment m p n = segment m' p n := by
  induction n generalizing p with
  | zero => rfl
  | succ n ih =>
    rw [segment_succ, segment_succ, h p (by omega) (by omega),
      ih fun i h1 h2 => h i (by omega) (by omega)]

theorem segment_memOf (raw : List UInt8) (p n : Nat) (h : p + n ≤ raw.length) :
    segment (memOf raw) p n = (raw.drop p).take n := by
  induction n generalizing p with
  | zero => simp
  | succ n ih =>
    have hp : p < raw.length := by omega
    rw [segment_succ, ih (p + 1) (by omega), List.drop_eq_getElem_cons hp, List.take_succ_cons]
    simp [memOf, hp]

/-- The memory after a copy of some bytes to `p`. -/
def store (m : Mem) (p : Nat) (bs : List UInt8) : Mem :=
  fun i => if p ≤ i ∧ i < p + bs.length then bs.getD (i - p) 0 else m i

theorem segment_store (p : Nat) (bs : List UInt8) :
    segment (store m p bs) p bs.length = bs := by
  apply List.ext_getElem?
  intro k
  by_cases hk : k < bs.length
  · have hback : p + k - p = k := by omega
    rw [segment_getElem? _ p _ k hk, store, if_pos (by omega), hback,
      List.getD_eq_getElem?_getD, List.getElem?_eq_getElem hk]
    rfl
  · rw [List.getElem?_eq_none (by rw [segment_length]; omega), List.getElem?_eq_none (by omega)]

theorem segment_store_take {p n : Nat} {bs : List UInt8} (h : n ≤ bs.length) :
    segment (store m p bs) p n = bs.take n := by
  rw [← segment_take _ p bs.length n h, segment_store]

theorem segment_store_before {p q n : Nat} (h : q + n ≤ p) (bs : List UInt8) :
    segment (store m p bs) q n = segment m q n := by
  apply segment_congr
  intro i _ hi
  exact if_neg (by omega)

end Segment

section Reads
variable {ω : Type}

/-- `memcpy` of `n` bytes from `p`. -/
def readBytes (p : Nat) : Nat → ByteProbe ω (List UInt8)
  | 0 => pure []
  | n + 1 => do
    let b ← .ask p
    let bs ← readBytes (p + 1) n
    pure (b :: bs)

def read16 (p : Nat) : ByteProbe ω UInt16 := do
  let bs ← readBytes p 2
  pure (UInt16.ofNat (leNat bs))

def read32 (p : Nat) : ByteProbe ω UInt32 := do
  let bs ← readBytes p 4
  pure (UInt32.ofNat (leNat bs))

def read64 (p : Nat) : ByteProbe ω UInt64 := do
  let bs ← readBytes p 8
  pure (UInt64.ofNat (leNat bs))

def strnlen (p : Nat) : Nat → ByteProbe ω Nat
  | 0 => pure 0
  | n + 1 => do
    let b ← .ask p
    if b = 0 then pure 0
    else do
      let k ← strnlen (p + 1) n
      pure (k + 1)

variable (m : Mem)

@[simp] theorem readBytes_val (p n : Nat) :
    (readBytes p n : ByteProbe ω _).val m = segment m p n := by
  induction n generalizing p with
  | zero => rfl
  | succ n ih => simp [readBytes, ih, segment_succ]

@[simp] theorem read16_val (p : Nat) :
    (read16 p : ByteProbe ω _).val m = UInt16.ofNat (leNat (segment m p 2)) := by
  simp [read16]

@[simp] theorem read32_val (p : Nat) :
    (read32 p : ByteProbe ω _).val m = UInt32.ofNat (leNat (segment m p 4)) := by
  simp [read32]

@[simp] theorem read64_val (p : Nat) :
    (read64 p : ByteProbe ω _).val m = UInt64.ofNat (leNat (segment m p 8)) := by
  simp [read64]

section Stored
variable {m} {p n off : Nat} (front back : List UInt8)

/-- A number in the middle of a segment is read back at its offset. -/
theorem read16_middle {x : UInt16} (h : segment m p n = front ++ (leBytes 2 x.toNat ++ back))
    (hoff : off = front.length) : (read16 (p + off) : ByteProbe ω _).val m = x := by
  have hx := x.toNat_lt
  rw [read16_val, segment_middle m front back h hoff (leBytes_length _ _).symm, leNat_leBytes,
    Nat.mod_eq_of_lt (by omega), UInt16.ofNat_toNat]

theorem read32_middle {x : UInt32} (h : segment m p n = front ++ (leBytes 4 x.toNat ++ back))
    (hoff : off = front.length) : (read32 (p + off) : ByteProbe ω _).val m = x := by
  have hx := x.toNat_lt
  rw [read32_val, segment_middle m front back h hoff (leBytes_length _ _).symm, leNat_leBytes,
    Nat.mod_eq_of_lt (by omega), UInt32.ofNat_toNat]

theorem read64_middle {x : UInt64} (h : segment m p n = front ++ (leBytes 8 x.toNat ++ back))
    (hoff : off = front.length) : (read64 (p + off) : ByteProbe ω _).val m = x := by
  have hx := x.toNat_lt
  rw [read64_val, segment_middle m front back h hoff (leBytes_length _ _).symm, leNat_leBytes,
    Nat.mod_eq_of_lt (by omega), UInt64.ofNat_toNat]

end Stored

theorem strnlen_val (p n : Nat) :
    (strnlen p n : ByteProbe ω _).val m = ((segment m p n).takeWhile (· ≠ 0)).length := by
  induction n generalizing p with
  | zero => rfl
  | succ n ih =>
    simp only [strnlen, ↓Probe.val_bind, Probe.val_ask, ↓Probe.val_ite, Probe.val_pure, ih,
      segment_succ, List.takeWhile_cons]
    split <;> simp_all

theorem strnlen_le (p n : Nat) : (strnlen p n : ByteProbe ω _).val m ≤ n := by
  rw [strnlen_val]
  simpa using (List.takeWhile_prefix (l := segment m p n) (· ≠ 0)).length_le

variable {m} {P : Access Nat ω → Prop}

theorem always_readBytes {p n : Nat} (h : ∀ i, p ≤ i → i < p + n → P (.read i)) :
    (readBytes p n).Always P m := by
  induction n generalizing p with
  | zero => exact Probe.always_pure _
  | succ n ih =>
    simp only [readBytes, Probe.always_bind, Probe.always_ask, Probe.always_pure, and_true]
    exact ⟨h p (by omega) (by omega), ih fun i h1 h2 => h i (by omega) (by omega)⟩

theorem always_readBytes_iff {p n : Nat} :
    (readBytes p n).Always P m ↔ ∀ i, p ≤ i → i < p + n → P (.read i) := by
  refine ⟨fun halways => ?_, always_readBytes⟩
  induction n generalizing p with
  | zero => exact fun i hle hlt => absurd hlt (Nat.not_lt.mpr hle)
  | succ n ih =>
    simp only [readBytes, Probe.always_bind, Probe.always_ask] at halways
    intro i hle hlt
    rcases Nat.eq_or_lt_of_le hle with rfl | hlater
    · exact halways.1
    · exact ih halways.2.1 i hlater (by omega)

def ReadsBelow (n : Nat) : Access Nat ω → Prop
  | .read i => i < n
  | .note _ => False

/-- The read lies in a range of addresses. -/
def ReadsWithin (lo hi : Nat) : Access Nat ω → Prop
  | .read i => lo ≤ i ∧ i < hi
  | .note _ => False

theorem always_readBytes_below {p k n : Nat} (h : p + k ≤ n) :
    (readBytes p k : ByteProbe ω _).Always (ReadsBelow n) m :=
  always_readBytes fun _ _ hi => Nat.lt_of_lt_of_le hi h

theorem always_read16 {p : Nat} (h : ∀ i, p ≤ i → i < p + 2 → P (.read i)) :
    (read16 p).Always P m := by
  simp [read16, always_readBytes h]

theorem always_read32 {p : Nat} (h : ∀ i, p ≤ i → i < p + 4 → P (.read i)) :
    (read32 p).Always P m := by
  simp [read32, always_readBytes h]

theorem always_read32_iff {p : Nat} :
    (read32 p).Always P m ↔ ∀ i, p ≤ i → i < p + 4 → P (.read i) := by
  rw [read32, Probe.always_bind, always_readBytes_iff, and_iff_left (Probe.always_pure _)]

theorem always_read64 {p : Nat} (h : ∀ i, p ≤ i → i < p + 8 → P (.read i)) :
    (read64 p).Always P m := by
  simp [read64, always_readBytes h]

theorem always_strnlen {p n : Nat} (h : ∀ i, p ≤ i → i < p + n → P (.read i)) :
    (strnlen p n).Always P m := by
  induction n generalizing p with
  | zero => exact Probe.always_pure _
  | succ n ih =>
    simp only [strnlen, Probe.always_bind, Probe.always_ask]
    refine ⟨h p (by omega) (by omega), Probe.always_ite (fun _ => Probe.always_pure _) fun _ => ?_⟩
    simp only [Probe.always_bind, Probe.always_pure, and_true]
    exact ih fun i h1 h2 => h i (by omega) (by omega)

end Reads
end HwMon
