import Mathlib.Algebra.Order.Ring.Nat
import Mathlib.Data.List.TakeWhile
import Mathlib.Data.List.Basic

/-!
# NUL-terminated text

`CStr size` is the string held by a `char` array of `size` bytes: it contains
no NUL and leaves room for its terminator. A string set is a run of non-empty
strings, each ended by a NUL, ended by one more NUL; `closeAt` finds the end of
a string set by its first two consecutive NULs and `nthString` looks a string
up in it. A lookup never passes the end that `closeAt` finds.
-/

namespace HwMon
set_option autoImplicit false

structure CStr (size : Nat) where
  bytes : List UInt8
  noNul : 0 ∉ bytes
  fits : bytes.length < size
  deriving DecidableEq

namespace CStr
variable {size : Nat}

@[ext] theorem ext {a b : CStr size} (h : a.bytes = b.bytes) : a = b := by
  cases a
  cases b
  cases h
  rfl

variable [NeZero size]

def empty : CStr size := ⟨[], List.not_mem_nil, Nat.pos_of_neZero size⟩

instance : Inhabited (CStr size) := ⟨empty⟩

/-- The string read back from an array that starts with the given bytes and a NUL. -/
def ofBytes (bs : List UInt8) : CStr size where
  bytes := (bs.takeWhile (· ≠ 0)).take (size - 1)
  noNul h := by
    have hmem := List.mem_of_mem_take h
    simpa using List.mem_takeWhile_imp hmem
  fits := by
    have hpos := Nat.pos_of_neZero size
    have hlen := List.length_take_le (size - 1) (bs.takeWhile (· ≠ 0))
    omega

theorem ofBytes_bytes {bs : List UInt8} (h : 0 ∉ bs) :
    (ofBytes bs : CStr size).bytes = bs.take (size - 1) := by
  have hall : bs.takeWhile (· ≠ 0) = bs :=
    List.takeWhile_eq_self_iff.mpr fun b hb => by
      simpa using fun hz : b = 0 => h (hz ▸ hb)
  simp only [ofBytes, hall]

end CStr

/-- Length up to and including the first two consecutive NULs. -/
def closeAt : List UInt8 → Option Nat
  | a :: b :: rest => if a = 0 ∧ b = 0 then some 2 else (closeAt (b :: rest)).map (· + 1)
  | _ => none

theorem closeAt_nil : closeAt [] = none := rfl

theorem closeAt_singleton (a : UInt8) : closeAt [a] = none := rfl

theorem closeAt_cons_cons (a b : UInt8) (rest : List UInt8) : closeAt (a :: b :: rest) =
    if a = 0 ∧ b = 0 then some 2 else (closeAt (b :: rest)).map (· + 1) := rfl

/-- The first two consecutive NULs are the last two bytes. -/
def Closed (s : List UInt8) : Prop := closeAt s = some s.length

instance (s : List UInt8) : Decidable (Closed s) := inferInstanceAs (Decidable (_ = _))

theorem closeAt_cons_of_ne {a : UInt8} (ha : a ≠ 0) (l : List UInt8) :
    closeAt (a :: l) = (closeAt l).map (· + 1) := by
  cases l with
  | nil => rfl
  | cons b rest => simp [closeAt_cons_cons, ha]

theorem closeAt_bounds {l : List UInt8} {n : Nat} (h : closeAt l = some n) :
    2 ≤ n ∧ n ≤ l.length := by
  induction l generalizing n with
  | nil => cases h
  | cons a l ih =>
    cases l with
    | nil => cases h
    | cons b rest =>
      simp only [closeAt_cons_cons] at h
      split at h
      · cases h
        simp
      · obtain ⟨k, hk, rfl⟩ := Option.map_eq_some_iff.mp h
        have hb := ih hk
        simp only [List.length_cons] at hb ⊢
        omega

theorem closeAt_append {l : List UInt8} {n : Nat} (h : closeAt l = some n) (r : List UInt8) :
    closeAt (l ++ r) = some n := by
  induction l generalizing n with
  | nil => cases h
  | cons a l ih =>
    cases l with
    | nil => cases h
    | cons b rest =>
      simp only [List.cons_append, closeAt_cons_cons] at h ⊢
      split at h
      · rename_i hz
        rw [if_pos hz, h]
      · rename_i hz
        obtain ⟨k, hk, rfl⟩ := Option.map_eq_some_iff.mp h
        rw [if_neg hz, ← List.cons_append, ih hk]
        rfl

theorem closed_take {l : List UInt8} {n : Nat} (h : closeAt l = some n) : Closed (l.take n) := by
  induction l generalizing n with
  | nil => cases h
  | cons a l ih =>
    cases l with
    | nil => cases h
    | cons b rest =>
      simp only [closeAt_cons_cons] at h
      split at h
      · rename_i hz
        cases h
        simp [Closed, closeAt_cons_cons, hz]
      · rename_i hz
        obtain ⟨k, hk, rfl⟩ := Option.map_eq_some_iff.mp h
        have hb := closeAt_bounds hk
        have hpos : 1 ≤ k := by omega
        obtain ⟨k, rfl⟩ := Nat.exists_eq_add_of_le' hpos
        have hc := ih hk
        simp only [Closed, List.take_succ_cons, List.length_cons] at hc ⊢
        rw [closeAt_cons_cons, if_neg hz, hc]
        rfl

theorem closeAt_eq_none_iff (l : List UInt8) :
    closeAt l = none ↔ ∀ i : Nat, ¬(l[i]? = some 0 ∧ l[i + 1]? = some 0) := by
  induction l with
  | nil => simp [closeAt_nil]
  | cons a l ih =>
    cases l with
    | nil => simp [closeAt_singleton]
    | cons b rest =>
      simp only [closeAt_cons_cons]
      split
      · rename_i hz
        simp only [reduceCtorEq, false_iff, not_forall, not_not]
        exact ⟨0, by simp [hz.1], by simp [hz.2]⟩
      · rename_i hz
        rw [Option.map_eq_none_iff, ih]
        constructor
        · intro h i
          cases i with
          | zero => simpa using hz
          | succ i => simpa using h i
        · intro h i
          simpa using h (i + 1)

/-- What `closeAt` finds lies two behind the least place of two consecutive NULs. -/
theorem closeAt_eq_some_iff (l : List UInt8) (n : Nat) :
    closeAt l = some n ↔ ∃ i, n = i + 2 ∧ (l[i]? = some 0 ∧ l[i + 1]? = some 0) ∧
      ∀ j < i, ¬(l[j]? = some 0 ∧ l[j + 1]? = some 0) := by
  induction l generalizing n with
  | nil => simp [closeAt_nil]
  | cons a l ih =>
    cases l with
    | nil => simp [closeAt_singleton]
    | cons b rest =>
      rw [closeAt_cons_cons]
      split
      · rename_i hz
        constructor
        · intro h
          refine ⟨0, (Option.some.inj h).symm, ⟨by simp [hz.1], by simp [hz.2]⟩, ?_⟩
          intro j hj
          exact absurd hj (Nat.not_lt_zero j)
        · rintro ⟨i, rfl, -, hleast⟩
          cases i with
          | zero => rfl
          | succ i => exact absurd ⟨by simp [hz.1], by simp [hz.2]⟩ (hleast 0 (Nat.succ_pos i))
      · rename_i hz
        rw [Option.map_eq_some_iff]
        constructor
        · rintro ⟨k, hk, rfl⟩
          obtain ⟨i, rfl, hi, hleast⟩ := (ih k).mp hk
          refine ⟨i + 1, by omega, by simpa using hi, ?_⟩
          intro j hj
          cases j with
          | zero => simpa using hz
          | succ j => simpa using hleast j (by omega)
        · rintro ⟨i, rfl, hi, hleast⟩
          cases i with
          | zero => exact absurd (by simpa using hi) hz
          | succ i =>
            refine ⟨i + 2, (ih _).mpr ⟨i, rfl, by simpa using hi, ?_⟩, by omega⟩
            intro j hj
            simpa using hleast (j + 1) (by omega)

theorem closed_tail {a : UInt8} {s : List UInt8} (h : Closed (a :: s)) :
    s = [0] ∨ Closed s := by
  cases s with
  | nil => cases h
  | cons b rest =>
    simp only [Closed, closeAt_cons_cons] at h
    split at h
    · rename_i hz
      simp only [List.length_cons, Option.some.injEq] at h
      have hrest : rest = [] := List.eq_nil_of_length_eq_zero (by omega)
      exact Or.inl (by rw [hz.2, hrest])
    · obtain ⟨k, hk, hlen⟩ := Option.map_eq_some_iff.mp h
      refine Or.inr (hk.trans ?_)
      simp only [List.length_cons] at hlen ⊢
      apply congrArg some
      omega

theorem closed_mem_zero {s : List UInt8} (h : Closed s) : 0 ∈ s := by
  by_contra hz
  have hnone := (closeAt_eq_none_iff s).mpr fun i hi => hz (List.mem_of_getElem? hi.1)
  rw [Closed, hnone] at h
  cases h

theorem closed_after {t u : List UInt8} (hz : 0 ∉ t) (h : Closed (t ++ 0 :: u)) :
    u = [0] ∨ Closed u := by
  induction t with
  | nil => exact closed_tail h
  | cons a t ih =>
    have ha : a ≠ 0 := fun he => hz (he ▸ List.mem_cons_self)
    refine ih (fun hm => hz (List.mem_cons_of_mem a hm)) ?_
    rcases closed_tail h with h0 | hc
    · cases t with
      | nil => simp_all [Closed, closeAt_cons_cons]
      | cons b t => simp_all
    · exact hc

/-- The string `k` strings further on; none at an empty or an unterminated string. -/
def nthString : Nat → List UInt8 → Option (List UInt8)
  | k, l =>
    let s := l.takeWhile (· ≠ 0)
    if s.length = l.length ∨ s = [] then none
    else match k with
      | 0 => some s
      | k + 1 => nthString k (l.drop (s.length + 1))

theorem nthString_zero_eq (l : List UInt8) : nthString 0 l =
    if (l.takeWhile (· ≠ 0)).length = l.length ∨ l.takeWhile (· ≠ 0) = [] then none
    else some (l.takeWhile (· ≠ 0)) := rfl

theorem nthString_succ_eq (k : Nat) (l : List UInt8) : nthString (k + 1) l =
    if (l.takeWhile (· ≠ 0)).length = l.length ∨ l.takeWhile (· ≠ 0) = [] then none
    else nthString k (l.drop ((l.takeWhile (· ≠ 0)).length + 1)) := rfl

/-- String number `index`, counted from one; number zero means no string. -/
def stringAt (l : List UInt8) (index : Nat) : Option (List UInt8) :=
  if index = 0 then none else nthString (index - 1) l

section Steps
variable {l s : List UInt8} (hs : l.takeWhile (· ≠ 0) = s)
include hs

theorem nthString_of_end (h : s.length = l.length ∨ s = []) (k : Nat) : nthString k l = none := by
  cases k with
  | zero => rw [nthString_zero_eq, hs, if_pos h]
  | succ k => rw [nthString_succ_eq, hs, if_pos h]

theorem nthString_zero (h : ¬(s.length = l.length ∨ s = [])) : nthString 0 l = some s := by
  rw [nthString_zero_eq, hs, if_neg h]

theorem nthString_succ (h : ¬(s.length = l.length ∨ s = [])) (k : Nat) :
    nthString (k + 1) l = nthString k (l.drop (s.length + 1)) := by
  rw [nthString_succ_eq, hs, if_neg h]

end Steps

theorem nthString_zero_cons (k : Nat) (l : List UInt8) : nthString k (0 :: l) = none := by
  cases k with
  | zero => simp [nthString_zero_eq]
  | succ k => simp [nthString_succ_eq]

theorem nthString_mem {k : Nat} {l s : List UInt8} (h : nthString k l = some s) :
    s ≠ [] ∧ 0 ∉ s := by
  induction k generalizing l with
  | zero =>
    rw [nthString_zero_eq] at h
    split at h
    · cases h
    · rename_i hs
      cases h
      exact ⟨fun he => hs (Or.inr he), fun hz => by simpa using List.mem_takeWhile_imp hz⟩
  | succ k ih =>
    rw [nthString_succ_eq] at h
    split at h
    · cases h
    · exact ih h

theorem stringAt_mem {l s : List UInt8} {index : Nat} (h : stringAt l index = some s) :
    s ≠ [] ∧ 0 ∉ s := by
  unfold stringAt at h
  split at h
  · cases h
  · exact nthString_mem h

theorem takeWhile_noNul {t : List UInt8} (hz : 0 ∉ t) (r : List UInt8) :
    (t ++ 0 :: r).takeWhile (· ≠ 0) = t := by
  have hall : ∀ b ∈ t, (fun b : UInt8 => decide (b ≠ 0)) b = true := fun b hb => by
    simpa using fun hb0 : b = 0 => hz (hb0 ▸ hb)
  rw [List.takeWhile_append_of_pos hall]
  simp

/-- One string with its terminator, then the rest. -/
theorem nthString_cons {t : List UInt8} (ht : t ≠ []) (hz : 0 ∉ t) (k : Nat) (l : List UInt8) :
    nthString k (t ++ 0 :: l) = match k with
      | 0 => some t
      | k + 1 => nthString k l := by
  have htake := takeWhile_noNul hz l
  have hdrop : (t ++ 0 :: l).drop (t.length + 1) = l := by
    rw [← List.drop_drop, List.drop_left]
    rfl
  have hcont : ¬(t.length = (t ++ 0 :: l).length ∨ t = []) := by simp [ht]
  cases k with
  | zero => exact nthString_zero htake hcont
  | succ k => rw [nthString_succ htake hcont, hdrop]

/-- A lookup stays inside a closed string set, whatever follows it. -/
theorem nthString_append {s : List UInt8} (h : s = [0] ∨ Closed s) (k : Nat) (r : List UInt8) :
    nthString k (s ++ r) = nthString k s := by
  induction k using Nat.strongRecOn generalizing s with
  | _ k ih =>
    rcases h with rfl | hc
    · rw [List.singleton_append, nthString_zero_cons, nthString_zero_cons]
    obtain ⟨t, u, rfl, hz⟩ := List.eq_append_cons_of_mem (closed_mem_zero hc)
    rw [List.append_assoc, List.cons_append]
    by_cases ht : t = []
    · subst t
      rw [List.nil_append, List.nil_append, nthString_zero_cons, nthString_zero_cons]
    · rw [nthString_cons ht hz, nthString_cons ht hz]
      cases k with
      | zero => rfl
      | succ k => exact ih k (Nat.lt_succ_self k) (closed_after hz hc)

theorem stringAt_append {s : List UInt8} (h : Closed s) (index : Nat) (r : List UInt8) :
    stringAt (s ++ r) index = stringAt s index := by
  unfold stringAt
  split
  · rfl
  · exact nthString_append (Or.inr h) _ r

/-- A string set as it is written: each string with its NUL, one more NUL, and
two NULs for the empty set. -/
def encodeStrings : List (List UInt8) → List UInt8
  | [] => [0, 0]
  | ss => ss.flatMap (· ++ [0]) ++ [0]

section Encode
variable {ss : List (List UInt8)}

theorem closeAt_zero_cons_of_head {a : UInt8} (ha : a ≠ 0) (l : List UInt8) :
    closeAt (0 :: a :: l) = (closeAt (a :: l)).map (· + 1) := by
  simp [closeAt_cons_cons, ha]

theorem closed_cons_of_ne {a : UInt8} (ha : a ≠ 0) {l : List UInt8} (h : Closed l) :
    Closed (a :: l) := by
  rw [Closed, closeAt_cons_of_ne ha, h]
  rfl

theorem closed_append_of_noNul {t l : List UInt8} (hz : 0 ∉ t) (h : Closed l) :
    Closed (t ++ l) := by
  induction t with
  | nil => exact h
  | cons a t ih =>
    have ha : a ≠ 0 := fun he => hz (he ▸ List.mem_cons_self)
    exact closed_cons_of_ne ha (ih fun hm => hz (List.mem_cons_of_mem a hm))

theorem encodeStrings_closed (h : ∀ s ∈ ss, s ≠ [] ∧ 0 ∉ s) : Closed (encodeStrings ss) := by
  cases ss with
  | nil => decide
  | cons s ss =>
    induction ss generalizing s with
    | nil =>
      have hs := h s List.mem_cons_self
      have hend : Closed [0, 0] := by decide
      simpa [encodeStrings] using closed_append_of_noNul hs.2 hend
    | cons t ss ih =>
      have hs := h s List.mem_cons_self
      have ht := h t (List.mem_cons_of_mem s List.mem_cons_self)
      have hc := ih t fun x hx => h x (List.mem_cons_of_mem s hx)
      obtain ⟨a, t, rfl⟩ := List.exists_cons_of_ne_nil ht.1
      have ha : a ≠ 0 := fun he => ht.2 (he ▸ List.mem_cons_self)
      have hzero : Closed (0 :: encodeStrings ((a :: t) :: ss)) := by
        simp only [encodeStrings, List.flatMap_cons, List.cons_append] at hc ⊢
        rw [Closed, closeAt_zero_cons_of_head ha, hc]
        rfl
      simpa [encodeStrings] using closed_append_of_noNul hs.2 hzero

theorem nthString_flatMap (h : ∀ s ∈ ss, s ≠ [] ∧ 0 ∉ s) (k : Nat) :
    nthString k (ss.flatMap (· ++ [0]) ++ [0]) = ss[k]? := by
  induction ss generalizing k with
  | nil => exact nthString_zero_cons k []
  | cons s ss ih =>
    have hs := h s List.mem_cons_self
    rw [List.flatMap_cons, List.append_assoc, List.append_assoc, List.singleton_append,
      nthString_cons hs.1 hs.2]
    cases k with
    | zero => rfl
    | succ k => exact ih (fun x hx => h x (List.mem_cons_of_mem s hx)) k

/-- Lookup undoes encoding: number `index` is the `index`-th string written. -/
theorem stringAt_encodeStrings (h : ∀ s ∈ ss, s ≠ [] ∧ 0 ∉ s) (index : Nat) :
    stringAt (encodeStrings ss) index = if index = 0 then none else ss[index - 1]? := by
  unfold stringAt
  split
  · rfl
  · cases ss with
    | nil => exact nthString_zero_cons _ [0]
    | cons s ss => exact nthString_flatMap h _

end Encode

/-- Each string with its NUL. -/
def terminated (ss : List (List UInt8)) : List UInt8 := ss.flatMap (· ++ [0])

section Terminated
variable {ss : List (List UInt8)}

@[simp] theorem terminated_nil : terminated [] = [] := rfl

@[simp] theorem terminated_cons (s : List UInt8) (ss : List (List UInt8)) :
    terminated (s :: ss) = s ++ [0] ++ terminated ss := rfl

theorem length_le_terminated (ss : List (List UInt8)) : ss.length ≤ (terminated ss).length := by
  induction ss with
  | nil => exact Nat.le_refl 0
  | cons s ss ih =>
    rw [terminated_cons, List.length_append, List.length_append, List.length_singleton,
      List.length_cons]
    omega

theorem closeAt_noNul_append {t : List UInt8} (hz : 0 ∉ t) (l : List UInt8) :
    closeAt (t ++ l) = (closeAt l).map (· + t.length) := by
  induction t with
  | nil => exact Option.map_id'.symm
  | cons a t ih =>
    have ha : a ≠ 0 := fun he => hz (he ▸ List.mem_cons_self)
    rw [List.cons_append, closeAt_cons_of_ne ha, ih fun hm => hz (List.mem_cons_of_mem a hm),
      Option.map_map]
    rfl

/-- No end is found before or at the NUL of the last of some non-empty strings. -/
theorem closeAt_terminated {r : List UInt8} {n : Nat} (hne : ss ≠ [])
    (h : ∀ s ∈ ss, s ≠ [] ∧ 0 ∉ s) (hn : closeAt (terminated ss ++ r) = some n) :
    (terminated ss).length < n := by
  induction ss generalizing n with
  | nil => exact absurd rfl hne
  | cons s ss ih =>
    have hs := h s List.mem_cons_self
    rw [terminated_cons, List.append_assoc, List.append_assoc, closeAt_noNul_append hs.2] at hn
    obtain ⟨k, hk, rfl⟩ := Option.map_eq_some_iff.mp hn
    rw [terminated_cons, List.length_append, List.length_append, List.length_singleton]
    cases ss with
    | nil =>
      have hk := (closeAt_bounds hk).1
      rw [terminated_nil, List.length_nil]
      omega
    | cons t ss =>
      have hrest : ∀ s ∈ t :: ss, s ≠ [] ∧ 0 ∉ s := fun x hx => h x (List.mem_cons_of_mem s hx)
      have ht := hrest t List.mem_cons_self
      obtain ⟨a, u, rfl⟩ := List.exists_cons_of_ne_nil ht.1
      have ha : a ≠ 0 := fun he => ht.2 (he ▸ List.mem_cons_self)
      have hzero : closeAt ([0] ++ (terminated ((a :: u) :: ss) ++ r)) =
          (closeAt (terminated ((a :: u) :: ss) ++ r)).map (· + 1) :=
        closeAt_zero_cons_of_head ha _
      rw [hzero] at hk
      obtain ⟨j, hj, rfl⟩ := Option.map_eq_some_iff.mp hk
      have hlt := ih (List.cons_ne_nil _ _) hrest hj
      omega

/-- Any bytes are some non-empty strings with their NULs, followed by an empty string or
by a text without NUL. -/
theorem terminated_split (data : List UInt8) : ∃ ss t, (∀ s ∈ ss, s ≠ [] ∧ 0 ∉ s) ∧
    data = terminated ss ++ t ∧ (0 ∉ t ∨ ∃ rest, t = 0 :: rest) := by
  induction hlen : data.length using Nat.strongRecOn generalizing data with
  | _ n ih =>
    by_cases hz : 0 ∈ data
    · obtain ⟨s, rest, rfl, hs⟩ := List.eq_append_cons_of_mem hz
      by_cases hne : s = []
      · subst hne
        exact ⟨[], 0 :: rest, fun s hs => absurd hs List.not_mem_nil, rfl, Or.inr ⟨rest, rfl⟩⟩
      · rw [List.length_append, List.length_cons] at hlen
        obtain ⟨ss, t, hss, hrest, hend⟩ := ih rest.length (by omega) rest rfl
        refine ⟨s :: ss, t, ?_, ?_, hend⟩
        · intro u hu
          rcases List.mem_cons.mp hu with rfl | hu
          · exact ⟨hne, hs⟩
          · exact hss u hu
        · rw [terminated_cons, hrest]
          simp only [List.append_assoc, List.cons_append, List.nil_append]
    · exact ⟨[], data, fun s hs => absurd hs List.not_mem_nil, rfl, Or.inl hz⟩

end Terminated
end HwMon
