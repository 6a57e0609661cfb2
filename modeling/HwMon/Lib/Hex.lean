import HwMon.Lib.Bytes

/-!
# Hexadecimal numerals

The digits of a numeral and its value, and `strtoul` with base 16 as the C
standard describes it: white space, a sign and `0x` may stand in front, and a
value that does not fit `unsigned long` becomes the largest one.
-/

namespace HwMon
set_option autoImplicit false

def isxdigit (b : UInt8) : Bool :=
  (48 ≤ b && b ≤ 57) || (65 ≤ b && b ≤ 70) || (97 ≤ b && b ≤ 102)

def isspace (b : UInt8) : Bool := b == 32 || (9 ≤ b && b ≤ 13)

def xdigitValue (b : UInt8) : Nat :=
  if b ≤ 57 then b.toNat - 48 else if b ≤ 70 then b.toNat - 55 else b.toNat - 87

def hexValue (digits : List UInt8) : Nat := digits.foldl (fun v d => 16 * v + xdigitValue d) 0

/-- The maximal run of hexadecimal digits at the front. -/
def hexRun (l : List UInt8) : List UInt8 := l.takeWhile isxdigit

/-- `n` hexadecimal digits. -/
structure HexField (n : Nat) where
  digits : List UInt8
  isHex : ∀ d ∈ digits, isxdigit d = true
  length_eq : digits.length = n

/-- `ULONG_MAX` where `unsigned long` has 32 bits. -/
def ulongMax : UInt32 := 0xFFFFFFFF

/-- The text behind `0x` or `0X`, where a digit follows that prefix. -/
def skipPrefix : List UInt8 → List UInt8
  | 48 :: x :: d :: l => if (x = 120 ∨ x = 88) ∧ isxdigit d = true then d :: l else 48 :: x :: d :: l
  | l => l

/-- The sign of a numeral, true for minus, and the text behind it. -/
def skipSign : List UInt8 → Bool × List UInt8
  | 43 :: l => (false, l)
  | 45 :: l => (true, l)
  | l => (false, l)

/-- `strtoul` with base 16; none where there is no number, so that `end` is the
start of the text. -/
def strtoul16 (p : List UInt8) : Option UInt32 :=
  let signed := skipSign (p.dropWhile isspace)
  let digits := hexRun (skipPrefix signed.2)
  if digits = [] then none
  else if 2 ^ 32 ≤ hexValue digits then some ulongMax
  else some (if signed.1 = true then -UInt32.ofNat (hexValue digits)
    else UInt32.ofNat (hexValue digits))

section Digits
variable {l ds : List UInt8}

theorem xdigitValue_lt {b : UInt8} (h : isxdigit b = true) : xdigitValue b < 16 :=
  forall_byte (P := fun b => isxdigit b = true → xdigitValue b < 16)
    (by set_option maxRecDepth 4000 in decide) b h

/-- A hexadecimal digit is no NUL, white space or sign, no separator of a key and no `x`. -/
theorem isxdigit_ne {b : UInt8} (h : isxdigit b = true) :
    b ≠ 0 ∧ isspace b = false ∧ b ≠ 43 ∧ b ≠ 45 ∧ b ≠ 95 ∧ b ≠ 120 ∧ b ≠ 88 :=
  forall_byte (P := fun b => isxdigit b = true → b ≠ 0 ∧ isspace b = false ∧ b ≠ 43 ∧ b ≠ 45 ∧
    b ≠ 95 ∧ b ≠ 120 ∧ b ≠ 88) (by set_option maxRecDepth 4000 in decide) b h

theorem foldl_hex (v : Nat) (ds : List UInt8) :
    ds.foldl (fun v d => 16 * v + xdigitValue d) v = v * 16 ^ ds.length + hexValue ds := by
  induction ds generalizing v with
  | nil => simp [hexValue]
  | cons d ds ih =>
    have hcons : hexValue (d :: ds) = (16 * 0 + xdigitValue d) * 16 ^ ds.length + hexValue ds :=
      ih _
    rw [List.foldl_cons, ih, hcons, List.length_cons, Nat.pow_succ', Nat.mul_zero, Nat.zero_add,
      Nat.add_mul, Nat.add_assoc, Nat.mul_comm 16 v, Nat.mul_assoc]

theorem hexValue_append (xs ys : List UInt8) :
    hexValue (xs ++ ys) = hexValue xs * 16 ^ ys.length + hexValue ys := by
  rw [hexValue, List.foldl_append, foldl_hex]
  rfl

theorem hexValue_lt (h : ∀ d ∈ ds, isxdigit d = true) : hexValue ds < 16 ^ ds.length := by
  induction ds with
  | nil => exact Nat.one_pos
  | cons d ds ih =>
    have hd := xdigitValue_lt (h d List.mem_cons_self)
    have hds := ih fun x hx => h x (List.mem_cons_of_mem d hx)
    have hcons : hexValue (d :: ds) = xdigitValue d * 16 ^ ds.length + hexValue ds := by
      rw [hexValue, List.foldl_cons, foldl_hex, Nat.mul_zero, Nat.zero_add]
    calc hexValue (d :: ds) = xdigitValue d * 16 ^ ds.length + hexValue ds := hcons
      _ < xdigitValue d * 16 ^ ds.length + 16 ^ ds.length := Nat.add_lt_add_left hds _
      _ = (xdigitValue d + 1) * 16 ^ ds.length := (Nat.succ_mul _ _).symm
      _ ≤ 16 * 16 ^ ds.length := Nat.mul_le_mul_right _ hd
      _ = 16 ^ (d :: ds).length := by rw [List.length_cons, Nat.pow_succ']

/-- The digits in front are the quotient. -/
theorem hexValue_div (h : ∀ d ∈ ds, isxdigit d = true) (k : Nat) :
    hexValue ds / 16 ^ (ds.length - k) = hexValue (ds.take k) := by
  have hlow := hexValue_lt fun d hd => h d (List.mem_of_mem_drop (i := k) hd)
  have hsplit := hexValue_append (ds.take k) (ds.drop k)
  rw [List.take_append_drop, List.length_drop] at hsplit
  rw [List.length_drop] at hlow
  rw [hsplit, Nat.add_comm, Nat.add_mul_div_right _ _ (Nat.pow_pos (by decide)),
    Nat.div_eq_of_lt hlow, Nat.zero_add]

/-- The digits at the end are the remainder. -/
theorem hexValue_mod (h : ∀ d ∈ ds, isxdigit d = true) {k : Nat} (hk : k ≤ ds.length) :
    hexValue ds % 16 ^ k = hexValue (ds.drop (ds.length - k)) := by
  have hlow := hexValue_lt fun d hd => h d (List.mem_of_mem_drop (i := ds.length - k) hd)
  have hsplit := hexValue_append (ds.take (ds.length - k)) (ds.drop (ds.length - k))
  have hlen : ds.length - (ds.length - k) = k := by omega
  rw [List.length_drop, hlen] at hlow
  rw [List.take_append_drop, List.length_drop, hlen] at hsplit
  rw [hsplit, Nat.mul_add_mod_self_right, Nat.mod_eq_of_lt hlow]

theorem hexRun_isHex (l : List UInt8) : ∀ d ∈ hexRun l, isxdigit d = true :=
  fun _ hd => List.mem_takeWhile_imp hd

theorem hexRun_isPrefix (l : List UInt8) : hexRun l <+: l := List.takeWhile_prefix isxdigit

/-- Digits up to something else are the run. -/
theorem hexRun_append (h : ∀ d ∈ ds, isxdigit d = true) {b : UInt8} (hb : isxdigit b = false)
    (l : List UInt8) : hexRun (ds ++ b :: l) = ds := by
  rw [hexRun, List.takeWhile_append_of_pos h, List.takeWhile_cons_of_neg (by simp [hb]),
    List.append_nil]

theorem hexRun_self (h : ∀ d ∈ ds, isxdigit d = true) : hexRun ds = ds :=
  List.takeWhile_eq_self_iff.mpr h

theorem hexRun_cons {d : UInt8} (hd : isxdigit d = true) : hexRun (d :: l) = d :: hexRun l :=
  List.takeWhile_cons_of_pos hd

theorem hexRun_cons_of_not {d : UInt8} (hd : isxdigit d = false) : hexRun (d :: l) = [] :=
  List.takeWhile_cons_of_neg (by simp [hd])

/-- The prefix is skipped only in front of a digit and starts with one itself. -/
theorem skipPrefix_cases (l : List UInt8) : skipPrefix l = l ∨
    ∃ x d r, l = 48 :: x :: d :: r ∧ (x = 120 ∨ x = 88) ∧ isxdigit d = true ∧
      skipPrefix l = d :: r := by
  unfold skipPrefix
  split
  · rename_i x d r
    split
    · rename_i h
      exact Or.inr ⟨x, d, r, rfl, h.1, h.2, rfl⟩
    · exact Or.inl rfl
  · exact Or.inl rfl

theorem hexRun_skipPrefix_eq_nil : hexRun (skipPrefix l) = [] ↔ hexRun l = [] := by
  rcases skipPrefix_cases l with h | ⟨x, d, r, rfl, _, hd, h⟩
  · rw [h]
  · rw [h, hexRun_cons hd, hexRun_cons (d := 48) rfl]
    exact iff_of_false (List.cons_ne_nil _ _) (List.cons_ne_nil _ _)

theorem skipPrefix_of_digits (h : ∀ d ∈ l, isxdigit d = true) : skipPrefix l = l := by
  rcases skipPrefix_cases l with heq | ⟨x, d, r, rfl, hx, _, _⟩
  · exact heq
  · have hne := isxdigit_ne (h x (List.mem_cons_of_mem _ List.mem_cons_self))
    rcases hx with rfl | rfl
    · exact absurd rfl hne.2.2.2.2.2.1
    · exact absurd rfl hne.2.2.2.2.2.2

end Digits

section Strtoul
variable {l : List UInt8}

theorem strtoul16_eq_none_iff (p : List UInt8) :
    strtoul16 p = none ↔ hexRun (skipSign (p.dropWhile isspace)).2 = [] := by
  rw [← hexRun_skipPrefix_eq_nil, strtoul16]
  split
  · rename_i h
    exact iff_of_true rfl h
  · rename_i h
    refine iff_of_false ?_ h
    split
    · exact Option.some_ne_none _
    · exact Option.some_ne_none _

/-- In front of a digit there is nothing to skip but `0x`. -/
theorem strtoul16_of_digit (h : hexRun l ≠ []) : strtoul16 l =
    some (if 2 ^ 32 ≤ hexValue (hexRun (skipPrefix l)) then ulongMax
      else UInt32.ofNat (hexValue (hexRun (skipPrefix l)))) := by
  cases l with
  | nil => exact absurd rfl h
  | cons d l =>
    have hd : isxdigit d = true := by
      by_contra hd
      exact h (hexRun_cons_of_not (Bool.eq_false_of_not_eq_true hd))
    obtain ⟨_, hspace, hplus, hminus, _⟩ := isxdigit_ne hd
    have hdrop : (d :: l).dropWhile isspace = d :: l :=
      List.dropWhile_cons_of_neg (by simp [hspace])
    have hsign : skipSign (d :: l) = (false, d :: l) := by
      unfold skipSign
      split
      · rename_i heq
        exact absurd (List.cons.inj heq).1 hplus
      · rename_i heq
        exact absurd (List.cons.inj heq).1 hminus
      · rfl
    simp only [strtoul16, hdrop, hsign]
    rw [if_neg (hexRun_skipPrefix_eq_nil.not.mpr h)]
    split
    · rfl
    · rfl

theorem strtoul16_digits (hne : l ≠ []) (h : ∀ d ∈ l, isxdigit d = true)
    (hfits : l.length ≤ 8) : strtoul16 l = some (UInt32.ofNat (hexValue l)) := by
  have hrun := hexRun_self h
  have hlt := hexValue_lt h
  have hpow : 16 ^ l.length ≤ 16 ^ 8 := Nat.pow_le_pow_right (by decide) hfits
  rw [strtoul16_of_digit (by rwa [hrun]), skipPrefix_of_digits h, hrun, if_neg (by omega)]

/-- Two digits or more are no `0x`. -/
theorem skipPrefix_append {ds : List UInt8} (h : ∀ d ∈ ds, isxdigit d = true)
    (htwo : 2 ≤ ds.length) (l : List UInt8) : skipPrefix (ds ++ l) = ds ++ l := by
  rcases skipPrefix_cases (ds ++ l) with heq | ⟨x, d, r, heq, hx, _, _⟩
  · exact heq
  · cases ds with
    | nil => cases htwo
    | cons a ds =>
      cases ds with
      | nil => exact absurd htwo (by simp)
      | cons b ds =>
        obtain ⟨_, hrest⟩ := List.cons.inj heq
        obtain ⟨rfl, _⟩ := List.cons.inj hrest
        have hne := isxdigit_ne (h b (List.mem_cons_of_mem a List.mem_cons_self))
        rcases hx with rfl | rfl
        · exact absurd rfl hne.2.2.2.2.2.1
        · exact absurd rfl hne.2.2.2.2.2.2

/-- The value of two to eight digits is read in front of something else than a digit. -/
theorem strtoul16_field {n : Nat} (f : HexField n) (htwo : 2 ≤ n) (hfits : n ≤ 8)
    (hl : ∀ b ∈ l.head?, isxdigit b = false) :
    strtoul16 (f.digits ++ l) = some (UInt32.ofNat (hexValue f.digits)) := by
  have hlen := f.length_eq
  have hrun : hexRun (f.digits ++ l) = f.digits := by
    cases l with
    | nil => rw [List.append_nil, hexRun_self f.isHex]
    | cons b l => exact hexRun_append f.isHex (hl b rfl) l
  have hne : f.digits ≠ [] := fun hnil => by
    rw [hnil, List.length_nil] at hlen
    omega
  have hlt := hexValue_lt f.isHex
  have hpow : 16 ^ f.digits.length ≤ 16 ^ 8 := Nat.pow_le_pow_right (by decide) (by omega)
  rw [strtoul16_of_digit (by rwa [hrun]), skipPrefix_append f.isHex (by omega), hrun,
    if_neg (by omega)]

end Strtoul
end HwMon
