import HwMon.Lib.Best
import HwMon.Lib.Hex
import HwMon.Lib.Search
import HwMon.Pci.Resources

/-!
# The class code among the compatible IDs

`extract_class_code` of `pci_enum_windows.c` over the memory of its buffer. The
loop measures every string with `strnlen`; the search for `CC_` and the scan of
the digits behind it are not told where the data end.
-/

namespace HwMon
set_option autoImplicit false

abbrev PciProbe (α : Type) := ByteProbe Empty α

/-- `CC_` -/
def ccKey : List UInt8 := [67, 67, 95]

/-- More bytes than any string in the address space has. -/
def stringLimit : Nat := 2 ^ 64

/-- `while (n < 6 && isxdigit((unsigned char)digits[n])) n++;` with the rounds left. -/
def countDigits (digits : Nat) : Nat → PciProbe Nat
  | 0 => pure 0
  | left + 1 => do
    let b ← .ask digits
    if isxdigit b = true then do
      let n ← countDigits (digits + 1) left
      pure (n + 1)
    else pure 0

/-- `best_digits` and `best_value`. -/
structure ClassBest where
  digits : Nat := 0
  value : UInt32 := 0
  deriving DecidableEq, Repr

/-- The body of the loop for the string of `slen` bytes at `p`. -/
def classString (p slen : Nat) (best : ClassBest) : PciProbe ClassBest := do
  let cc ← strstr ccKey p stringLimit
  match cc with
  | none => pure best
  | some cc =>
    if cc < p + slen then do
      let n ← countDigits (cc + 3) 6
      if 2 ≤ n then do
        let buf ← readBytes (cc + 3) n
        let v := (strtoul16 buf).getD 0
        if best.digits < n then pure ⟨n, v⟩ else pure best
      else pure best
    else pure best

/-- The loop over the strings up to `stop`, for so many strings at most. -/
def classLoop (stop : Nat) : Nat → Nat → ClassBest → PciProbe ClassBest
  | 0, _, best => pure best
  | rounds + 1, p, best =>
    if p < stop then do
      let b ← .ask p
      if b = 0 then pure best
      else do
        let slen ← strnlen p (stop - p)
        let best ← classString p slen best
        classLoop stop rounds (p + slen + 1) best
    else pure best

/-- The last two of the first `k` digits of the best value. -/
def ClassBest.pair (best : ClassBest) (k : Nat) : UInt8 :=
  ((best.value >>> UInt32.ofNat ((best.digits - k) * 4)) &&& 0xFF).toUInt8

def ClassBest.store (best : ClassBest) (dev : PciDevice) : PciDevice :=
  let dev := { dev with classCode := best.pair 2 }
  let dev := if 4 ≤ best.digits then { dev with subclass := best.pair 4 } else dev
  let dev := if 6 ≤ best.digits then { dev with progIf := (best.value &&& 0xFF).toUInt8 } else dev
  { dev with classInfoAvailable := true }

def extractClassCode (totalLen : UInt64) (dev : PciDevice) : PciProbe (Bool × PciDevice) := do
  let best ← classLoop totalLen.toNat totalLen.toNat 0 {}
  if 2 ≤ best.digits then pure (true, best.store dev) else pure (false, dev)

/-!
## One string
-/

/-- The digits behind the first `CC_` of a string, six at most. -/
def ccDigits (s : List UInt8) : List UInt8 :=
  match afterSub ccKey s with
  | none => []
  | some r => (hexRun r).take 6

def ClassBest.ofDigits (digits : List UInt8) : ClassBest :=
  ⟨digits.length, UInt32.ofNat (hexValue digits)⟩

/-- The best value once a string has been chosen. -/
def ClassBest.ofString (best : Option (List UInt8)) : ClassBest :=
  .ofDigits ((best.map ccDigits).getD [])

section Digits
variable {m : Mem} {q : Nat}

theorem countDigits_succ (q k : Nat) : countDigits q (k + 1) = (do
    let b ← .ask q
    if isxdigit b = true then do
      let n ← countDigits (q + 1) k
      pure (n + 1)
    else pure 0) := rfl

theorem countDigits_val (q k : Nat) :
    (countDigits q k).val m = (hexRun (segment m q k)).length := by
  induction k generalizing q with
  | zero => rfl
  | succ k ih =>
    simp only [countDigits_succ, ↓Probe.val_bind, Probe.val_ask, ↓Probe.val_ite, Probe.val_pure, ih,
      segment_succ]
    split
    · rename_i hd
      rw [hexRun_cons hd, List.length_cons]
    · rename_i hd
      rw [hexRun_cons_of_not (Bool.eq_false_of_not_eq_true hd), List.length_nil]

/-- The scan reads a byte just when all bytes before it are digits. -/
theorem always_countDigits_iff {P : Access Nat Empty → Prop} {k : Nat} :
    (countDigits q k).Always P m ↔
      ∀ i < k, (∀ d ∈ segment m q i, isxdigit d = true) → P (.read (q + i)) := by
  induction k generalizing q with
  | zero => exact iff_of_true (Probe.always_pure _) fun i hi => absurd hi (Nat.not_lt_zero i)
  | succ k ih =>
    simp only [countDigits_succ, Probe.always_bind, Probe.always_ask, Probe.val_ask]
    constructor
    · intro h i hi hdigits
      cases i with
      | zero => exact h.1
      | succ i =>
        have hd : isxdigit (m q) = true := hdigits _ List.mem_cons_self
        have hnext := h.2
        rw [if_pos hd, Probe.always_bind, ih] at hnext
        rw [← Nat.add_assoc, Nat.add_right_comm]
        exact hnext.1 i (Nat.lt_of_succ_lt_succ hi) fun d hmem =>
          hdigits d (List.mem_cons_of_mem _ hmem)
    · intro h
      refine ⟨h 0 (Nat.succ_pos k) fun d hd => absurd hd List.not_mem_nil, ?_⟩
      refine Probe.always_ite (fun hd => ?_) fun _ => Probe.always_pure _
      rw [Probe.always_bind, ih]
      refine ⟨fun i hi hdigits => ?_, Probe.always_pure _⟩
      have hread := h (i + 1) (Nat.succ_lt_succ hi) fun d hmem => by
        rcases List.mem_cons.mp hmem with rfl | hmem
        · exact hd
        · exact hdigits d hmem
      rwa [← Nat.add_assoc, Nat.add_right_comm] at hread

/-- The digits in memory are those of the text, where something else ends it. -/
theorem hexRun_segment {r : List UInt8} {b : UInt8} (hb : isxdigit b = false)
    (hm : segment m q (r.length + 1) = r ++ [b]) (k : Nat) :
    hexRun (segment m q k) = (hexRun r).take k := by
  induction k generalizing q r with
  | zero => rfl
  | succ k ih =>
    rw [segment_succ]
    cases r with
    | nil =>
      rw [(List.cons.inj hm).1, hexRun_cons_of_not hb]
      rfl
    | cons d r =>
      obtain ⟨hhead, htail⟩ := List.cons.inj hm
      rw [hhead]
      cases hd : isxdigit d with
      | false => rw [hexRun_cons_of_not hd, hexRun_cons_of_not hd, List.take_nil]
      | true => rw [hexRun_cons hd, hexRun_cons hd, List.take_succ_cons, ih htail]

/-- No digits run over something else. -/
theorem digits_stop {r : List UInt8} {b : UInt8} (hb : isxdigit b = false)
    (hm : segment m q (r.length + 1) = r ++ [b]) {j : Nat}
    (h : ∀ d ∈ segment m q j, isxdigit d = true) : j ≤ r.length := by
  by_contra hlt
  have hat := segment_getElem? m q j r.length (Nat.not_le.mp hlt)
  rw [(List.cons.inj (segment_append m hm).2.1).1] at hat
  have hdigit := h b (List.mem_of_getElem? hat)
  rw [hb] at hdigit
  cases hdigit

/-- The digits that the scan counts are the bytes that are copied. -/
theorem segment_hexRun (q k : Nat) :
    segment m q (hexRun (segment m q k)).length = hexRun (segment m q k) := by
  have hpre := hexRun_isPrefix (segment m q k)
  have hlen := hpre.length_le
  rw [segment_length] at hlen
  rw [← segment_take m q k _ hlen]
  exact (List.prefix_iff_eq_take.mp hpre).symm

theorem segment_isHex {k j : Nat} (hj : j ≤ (hexRun (segment m q k)).length) {d : UInt8}
    (hd : d ∈ segment m q j) : isxdigit d = true := by
  have htake := segment_take m q _ j hj
  rw [segment_hexRun] at htake
  rw [← htake] at hd
  exact hexRun_isHex _ d (List.mem_of_mem_take hd)

end Digits

section Found
variable {m : Mem} {p slen i : Nat} {best : ClassBest}

/-- The body of the loop where the search succeeds. -/
theorem classString_found (h : (strstr ccKey p stringLimit : PciProbe _).val m = some (p + i))
    (hi : i < slen) : (classString p slen best).val m =
      if 2 ≤ (hexRun (segment m (p + i + 3) 6)).length ∧
          best.digits < (hexRun (segment m (p + i + 3) 6)).length
      then .ofDigits (hexRun (segment m (p + i + 3) 6)) else best := by
  have hlen : (hexRun (segment m (p + i + 3) 6)).length ≤ 6 := by
    have hpre := (hexRun_isPrefix (segment m (p + i + 3) 6)).length_le
    rwa [segment_length] at hpre
  simp only [classString, ↓Probe.val_bind, h, if_pos (Nat.add_lt_add_left hi p),
    countDigits_val, ↓Probe.val_ite, readBytes_val, segment_hexRun, Probe.val_pure]
  by_cases htwo : 2 ≤ (hexRun (segment m (p + i + 3) 6)).length
  · have hne : hexRun (segment m (p + i + 3) 6) ≠ [] := fun hnil => by
      rw [hnil, List.length_nil] at htwo
      omega
    rw [if_pos htwo, strtoul16_digits hne (hexRun_isHex _) (Nat.le_trans hlen (by decide))]
    simp only [htwo, true_and, Option.getD_some, ClassBest.ofDigits]
  · simp only [htwo, false_and, if_false]

theorem always_classString_found {P : Access Nat Empty → Prop}
    (h : (strstr ccKey p stringLimit : PciProbe _).val m = some (p + i)) (hi : i < slen) :
    (classString p slen best).Always P m ↔
      (strstr ccKey p stringLimit).Always P m ∧ (countDigits (p + i + 3) 6).Always P m := by
  simp only [classString, Probe.always_bind, h, if_pos (Nat.add_lt_add_left hi p),
    countDigits_val]
  refine and_congr_right fun _ => and_iff_left_of_imp fun hcount => ?_
  refine Probe.always_ite (fun _ => ?_) fun _ => Probe.always_pure _
  rw [Probe.always_bind]
  refine ⟨always_readBytes fun j hle hlt => ?_,
    Probe.always_ite (fun _ => Probe.always_pure _) fun _ => Probe.always_pure _⟩
  obtain ⟨j, rfl⟩ := Nat.exists_eq_add_of_le hle
  have hlen := (hexRun_isPrefix (segment m (p + i + 3) 6)).length_le
  rw [segment_length] at hlen
  exact always_countDigits_iff.mp hcount j (by omega) fun d hd =>
    segment_isHex (k := 6) (by omega) hd

end Found

/-!
## The loop over terminated strings
-/

/-- How specific a string is: the number of its digits. -/
def classSize (s : List UInt8) : Nat := (ccDigits s).length

theorem ccDigits_of_none {s : List UInt8} (h : findSub ccKey s = none) : ccDigits s = [] := by
  rw [ccDigits, afterSub, h]
  rfl

theorem ccDigits_of_some {s : List UInt8} {i : Nat} (h : findSub ccKey s = some i) :
    ccDigits s = (hexRun (s.drop (i + 3))).take 6 := by
  rw [ccDigits, afterSub, h]
  rfl

/-- The text behind a place of a string, in memory. -/
theorem segment_behind {m : Mem} {p k : Nat} {s t : List UInt8}
    (hm : segment m p (s.length + t.length) = s ++ t) (hk : k ≤ s.length) :
    segment m (p + k) ((s.drop k).length + t.length) = s.drop k ++ t := by
  have hdrop := segment_drop m p (s.length + t.length) k (by omega)
  rw [hm, List.drop_append_of_le_length hk] at hdrop
  rw [hdrop, List.length_drop]
  congr 1
  omega

section Terminated
variable {m : Mem} {p : Nat} {s : List UInt8}

theorem keepBetter_of_none {best : Option (List UInt8)} (h : findSub ccKey s = none) :
    keepBetter classSize 2 best s = best := by
  have hsize : classSize s = 0 := congrArg List.length (ccDigits_of_none h)
  rw [keepBetter, hsize, if_neg fun hle => absurd hle.1 (by decide)]

theorem ofString_keepBetter (best : Option (List UInt8)) (s : List UInt8) :
    ClassBest.ofString (keepBetter classSize 2 best s) =
      if 2 ≤ (ccDigits s).length ∧ (ClassBest.ofString best).digits < (ccDigits s).length then
        .ofDigits (ccDigits s)
      else .ofString best := by
  have hbetter : (2 ≤ classSize s ∧ ∀ b ∈ best, classSize b < classSize s) ↔
      2 ≤ (ccDigits s).length ∧ (ClassBest.ofString best).digits < (ccDigits s).length := by
    refine and_congr_right fun htwo => ?_
    cases best with
    | none => exact iff_of_true (fun b hb => by cases hb) (Nat.lt_of_lt_of_le Nat.two_pos htwo)
    | some b =>
      constructor
      · intro h
        exact h b rfl
      · intro h c hc
        cases hc
        exact h
  rw [keepBetter]
  simp only [hbetter]
  split
  · rfl
  · rfl

/-- The body of the loop for a terminated string. -/
theorem classString_terminated {P : Access Nat Empty → Prop} (best : Option (List UInt8))
    (hm : segment m p (s.length + 1) = s ++ [0]) (hs : 0 ∉ s) (hlen : s.length < stringLimit)
    (hP : ∀ j, p ≤ j → j ≤ p + s.length → P (.read j)) :
    (classString p s.length (.ofString best)).val m =
        .ofString (keepBetter classSize 2 best s) ∧
      (classString p s.length (.ofString best)).Always P m := by
  have hkey : 0 ∉ ccKey := by decide
  have htext := (segment_append m hm).1
  cases hfind : findSub ccKey s with
  | none =>
    obtain ⟨hval, halways⟩ := strstr_absent (ω := Empty) hkey hm hfind hlen hP
    refine ⟨?_, ?_⟩
    · simp only [classString, ↓Probe.val_bind, hval, Probe.val_pure, keepBetter_of_none hfind]
    · simp only [classString, Probe.always_bind, hval, Probe.always_pure, and_true]
      exact halways
  | some i =>
    obtain ⟨hval, halways⟩ := strstr_found (ω := Empty) hkey htext hs hfind hlen
      fun j hle hlt => hP j hle (Nat.le_of_lt hlt)
    have hbound : i + 3 ≤ s.length := findSub_bound hfind
    have hbehind : segment m (p + (i + 3)) ((s.drop (i + 3)).length + 1) =
        s.drop (i + 3) ++ [0] := segment_behind (t := [0]) hm hbound
    rw [← Nat.add_assoc] at hbehind
    have hrun : hexRun (segment m (p + i + 3) 6) = ccDigits s := by
      rw [ccDigits_of_some hfind]
      exact hexRun_segment rfl hbehind 6
    refine ⟨?_, (always_classString_found hval (by omega)).mpr ⟨halways, ?_⟩⟩
    · rw [classString_found hval (by omega), hrun, ofString_keepBetter]
    · refine always_countDigits_iff.mpr fun j _ hdigits => hP _ (by omega) ?_
      have hstop := digits_stop rfl hbehind hdigits
      rw [List.length_drop] at hstop
      omega

end Terminated

section Loop
variable {m : Mem} {p stop : Nat}

theorem classLoop_string (rounds : Nat) {s : List UInt8} (best : Option (List UInt8))
    (hm : segment m p (s.length + 1) = s ++ [0]) (hne : s ≠ []) (hs : 0 ∉ s)
    (hstop : p + s.length + 1 ≤ stop) (hlimit : stop ≤ stringLimit) :
    Probe.Leads (ReadsBelow stop) m (classLoop stop (rounds + 1) p (.ofString best))
      (classLoop stop rounds (p + s.length + 1)
        (.ofString (keepBetter classSize 2 best s))) := by
  have hp : p < stop := by omega
  have hb : m p ≠ 0 := by
    obtain ⟨b, s, rfl⟩ := List.exists_cons_of_ne_nil hne
    rw [(List.cons.inj hm).1]
    exact fun hz => hs (hz ▸ List.mem_cons_self)
  have hslen : (strnlen p (stop - p) : PciProbe _).val m = s.length := by
    have hrest : stop - p = s.length + 1 + (stop - p - (s.length + 1)) := by omega
    rw [strnlen_val, hrest, segment_add, hm, List.append_assoc, List.singleton_append,
      takeWhile_noNul hs]
  obtain ⟨hval, halways⟩ := classString_terminated (P := ReadsBelow stop) best hm hs (by omega)
    fun j _ hle => Nat.lt_of_le_of_lt hle (by omega)
  have hread : (Probe.ask p : PciProbe _).Always (ReadsBelow stop) m :=
    (Probe.always_ask p).mpr hp
  have hmeasure : (strnlen p (stop - p) : PciProbe _).Always (ReadsBelow stop) m :=
    always_strnlen fun i _ hlt => by show i < stop; omega
  rw [classLoop, if_pos hp]
  refine (Probe.Leads.bind hread _).trans ?_
  rw [Probe.val_ask, if_neg hb]
  refine (Probe.Leads.bind hmeasure _).trans ?_
  rw [hslen]
  refine (Probe.Leads.bind halways _).trans ?_
  rw [hval]
  exact Probe.Leads.refl _

/-- The loop over terminated strings chooses among them and goes on behind them. -/
theorem classLoop_terminated (rounds : Nat) {ss : List (List UInt8)} (best : Option (List UInt8))
    (hm : segment m p (terminated ss).length = terminated ss)
    (hss : ∀ s ∈ ss, s ≠ [] ∧ 0 ∉ s) (hstop : p + (terminated ss).length ≤ stop)
    (hlimit : stop ≤ stringLimit) :
    Probe.Leads (ReadsBelow stop) m (classLoop stop (ss.length + rounds) p (.ofString best))
      (classLoop stop rounds (p + (terminated ss).length)
        (.ofString (ss.foldl (keepBetter classSize 2) best))) := by
  induction ss generalizing p best with
  | nil =>
    rw [List.length_nil, Nat.zero_add]
    exact Probe.Leads.refl _
  | cons s ss ih =>
    obtain ⟨hne, hs⟩ := hss s List.mem_cons_self
    have hsplit : segment m p (terminated (s :: ss)).length = s ++ [0] ++ terminated ss := hm
    obtain ⟨hfirst, hrest, hlen⟩ := segment_append m hsplit
    rw [List.length_append, List.length_singleton] at hfirst hrest hlen
    rw [hlen] at hstop ⊢
    rw [List.length_cons, Nat.add_right_comm]
    refine (classLoop_string _ best hfirst hne hs (by omega) hlimit).trans ?_
    have hnext := ih (keepBetter classSize 2 best s) (p := p + s.length + 1) hrest
      (fun t ht => hss t (List.mem_cons_of_mem s ht)) (by omega)
    have hpos : p + s.length + 1 + (terminated ss).length =
        p + (s.length + 1 + (terminated ss).length) := by omega
    rw [hpos] at hnext
    exact hnext

end Loop
end HwMon
