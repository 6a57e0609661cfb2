import HwMon.Pci.ClassCode

/-!
# Class codes from data that end without a NUL

A last string without its NUL is searched and scanned beyond the data unless its
own bytes settle the scan: `CC_` occurs in it, followed by six digits or by
something else than a digit.
-/

namespace HwMon
set_option autoImplicit false

/-- The text itself shows where the digits behind its first `CC_` end. -/
def Settled (t : List UInt8) : Prop :=
  ∃ r ∈ afterSub ccKey t, 6 ≤ (hexRun r).length ∨ (hexRun r).length < r.length

/-- A last string without NUL, behind non-empty strings with theirs, is settled. -/
def EndsSettled (data : List UInt8) : Prop :=
  ∀ ids t, data = terminated ids ++ t → (∀ s ∈ ids, s ≠ [] ∧ 0 ∉ s) → t ≠ [] → 0 ∉ t → Settled t

/-- `extract_class_code` keeps to its data: it reads nothing else, and a memory that
agrees on the data gives the same result. -/
structure ClassCodeConfined (totalLen : UInt64) (dev : PciDevice) (m : Mem) : Prop where
  inside : (extractClassCode totalLen dev).Always (ReadsBelow totalLen.toNat) m
  same : ∀ m' : Mem, (∀ i < totalLen.toNat, m i = m' i) →
    (extractClassCode totalLen dev).val m' = (extractClassCode totalLen dev).val m

section Last
variable {m : Mem} {p stop rounds : Nat} {best : ClassBest} {t : List UInt8}

theorem hexRun_length_le (r : List UInt8) : (hexRun r).length ≤ r.length :=
  (hexRun_isPrefix r).length_le

/-- The body of the loop for a string that the data cut off. -/
theorem always_classString_last (hm : segment m p t.length = t) (ht : 0 ∉ t)
    (hstop : p + t.length = stop) (hlimit : t.length < stringLimit) :
    (classString p t.length best).Always (ReadsBelow stop) m ↔ Settled t := by
  cases hfind : findSub ccKey t with
  | none =>
    have hnone : ¬Settled t := by
      rintro ⟨r, hr, _⟩
      rw [afterSub, hfind] at hr
      cases hr
    refine iff_of_false (fun halways => ?_) hnone
    obtain ⟨j, hle, hread⟩ := strstr_past (ω := Empty) hm ht hfind hlimit
    rw [classString, Probe.always_bind] at halways
    have hlt : j < stop := halways.1 _ hread
    omega
  | some i =>
    have hbound : i + 3 ≤ t.length := findSub_bound hfind
    obtain ⟨hval, halways⟩ := strstr_found (ω := Empty) (P := ReadsBelow stop) (by decide) hm ht
      hfind hlimit fun j _ hlt => by show j < stop; omega
    have hbehind : segment m (p + (i + 3)) (t.drop (i + 3)).length = t.drop (i + 3) := by
      have hdrop := segment_behind (t := []) (by simpa using hm) hbound
      simpa using hdrop
    have hsettled : Settled t ↔ 6 ≤ (hexRun (t.drop (i + 3))).length ∨
        (hexRun (t.drop (i + 3))).length < (t.drop (i + 3)).length := by
      have hafter : afterSub ccKey t = some (t.drop (i + 3)) := by
        rw [afterSub, hfind]
        rfl
      rw [Settled, hafter]
      simp
    rw [always_classString_found hval (by omega), and_iff_right halways, hsettled,
      always_countDigits_iff, Nat.add_assoc]
    have hlen : (t.drop (i + 3)).length = t.length - (i + 3) := List.length_drop
    generalize t.drop (i + 3) = r at hbehind hlen
    constructor
    · intro hreads
      by_contra hopen
      obtain ⟨hsix, hall⟩ := not_or.mp hopen
      have hle := hexRun_length_le r
      have hrun : hexRun r = r := (hexRun_isPrefix r).eq_of_length (by omega)
      have hlt : p + (i + 3) + r.length < stop := by
        refine hreads r.length (by rw [hrun] at hsix; omega) fun d hd => ?_
        rw [hbehind, ← hrun] at hd
        exact hexRun_isHex r d hd
      omega
    · intro hends j hj hdigits
      show p + (i + 3) + j < stop
      by_contra hge
      have hdigit : ∀ d ∈ r, isxdigit d = true := fun d hd => by
        have htake := segment_take m (p + (i + 3)) j r.length (by omega)
        rw [hbehind] at htake
        exact hdigits d (List.mem_of_mem_take (htake.symm ▸ hd))
      have hrun := hexRun_self hdigit
      rw [hrun] at hends
      omega

/-- A round of the loop for a string that the data cut off. -/
theorem always_classLoop_last (hm : segment m p t.length = t) (ht : 0 ∉ t) (hne : t ≠ [])
    (hstop : p + t.length = stop) (hlimit : t.length < stringLimit) :
    (classLoop stop (rounds + 1) p best).Always (ReadsBelow stop) m ↔ Settled t := by
  have hpos : 0 < t.length := List.length_pos_iff.mpr hne
  have hp : p < stop := by omega
  have hb : m p ≠ 0 := by
    obtain ⟨b, t, rfl⟩ := List.exists_cons_of_ne_nil hne
    rw [(List.cons.inj hm).1]
    exact fun hz => ht (hz ▸ List.mem_cons_self)
  have hslen : (strnlen p (stop - p) : PciProbe _).val m = t.length := by
    have hlen : stop - p = t.length := by omega
    have hall : t.takeWhile (· ≠ 0) = t := List.takeWhile_eq_self_iff.mpr fun b hb => by
      simpa using fun hz : b = 0 => ht (hz ▸ hb)
    rw [strnlen_val, hlen, hm, hall]
  have hread : (Probe.ask p : PciProbe _).Always (ReadsBelow stop) m :=
    (Probe.always_ask p).mpr hp
  have hmeasure : (strnlen p (stop - p) : PciProbe _).Always (ReadsBelow stop) m :=
    always_strnlen fun i _ hlt => by show i < stop; omega
  have hend : ∀ best', (classLoop stop rounds (p + t.length + 1) best').Always
      (ReadsBelow stop) m := by
    intro best'
    cases rounds with
    | zero => exact Probe.always_pure _
    | succ rounds =>
      rw [classLoop, if_neg (by omega)]
      exact Probe.always_pure _
  rw [classLoop, if_pos hp, (Probe.Leads.bind hread _).always_iff, Probe.val_ask, if_neg hb,
    (Probe.Leads.bind hmeasure _).always_iff, hslen, Probe.always_bind, and_iff_left (hend _)]
  exact always_classString_last hm ht hstop hlimit

end Last

section Confined
variable {m : Mem} {totalLen : UInt64}

theorem always_extractClassCode (dev : PciDevice) {P : Access Nat Empty → Prop} :
    (extractClassCode totalLen dev).Always P m ↔
      (classLoop totalLen.toNat totalLen.toNat 0 {}).Always P m := by
  rw [extractClassCode, Probe.always_bind, and_iff_left]
  exact Probe.always_ite (fun _ => Probe.always_pure _) fun _ => Probe.always_pure _

/-- Behind some strings with their NULs the loop goes on with the rest of the data. -/
theorem always_extractClassCode_rest (dev : PciDevice) {ids : List (List UInt8)} {t : List UInt8}
    (hdata : segment m 0 totalLen.toNat = terminated ids ++ t)
    (hids : ∀ s ∈ ids, s ≠ [] ∧ 0 ∉ s) : ∃ rounds best, t.length ≤ rounds ∧
      ((extractClassCode totalLen dev).Always (ReadsBelow totalLen.toNat) m ↔
        (classLoop totalLen.toNat rounds (terminated ids).length best).Always
          (ReadsBelow totalLen.toNat) m) := by
  obtain ⟨hbytes, _, hlen⟩ := segment_append m hdata
  have hcount := length_le_terminated ids
  obtain ⟨rounds, hrounds⟩ := Nat.exists_eq_add_of_le (m := ids.length) (n := totalLen.toNat)
    (by omega)
  have hleads := classLoop_terminated rounds none hbytes hids
    (by rw [Nat.zero_add]; omega) (Nat.le_of_lt totalLen.toNat_lt)
  rw [Nat.zero_add, ← hrounds] at hleads
  refine ⟨rounds, .ofString (ids.foldl (keepBetter classSize 2) none), by omega, ?_⟩
  rw [always_extractClassCode]
  exact hleads.always_iff

theorem always_extractClassCode_settled (dev : PciDevice)
    (h : EndsSettled (segment m 0 totalLen.toNat)) :
    (extractClassCode totalLen dev).Always (ReadsBelow totalLen.toNat) m := by
  obtain ⟨ids, t, hids, hdata, hend⟩ := terminated_split (segment m 0 totalLen.toNat)
  obtain ⟨rounds, best, hrounds, hiff⟩ := always_extractClassCode_rest dev hdata hids
  obtain ⟨_, htail, hlen⟩ := segment_append m hdata
  rw [Nat.zero_add] at htail
  have hlimit := totalLen.toNat_lt
  rw [hiff]
  rcases hend with ht | ⟨rest, rfl⟩
  · by_cases hne : t = []
    · subst hne
      cases rounds with
      | zero => exact Probe.always_pure _
      | succ rounds =>
        rw [classLoop, if_neg (by rw [hlen]; simp)]
        exact Probe.always_pure _
    · have hpos : 0 < t.length := List.length_pos_iff.mpr hne
      obtain ⟨rounds, rfl⟩ := Nat.exists_eq_add_one_of_ne_zero (n := rounds) (by omega)
      exact (always_classLoop_last htail ht hne hlen.symm (by unfold stringLimit; omega)).mpr
        (h ids t hdata hids hne ht)
  · rw [List.length_cons] at hrounds htail hlen
    obtain ⟨rounds, rfl⟩ := Nat.exists_eq_add_one_of_ne_zero (n := rounds) (by omega)
    have hp : (terminated ids).length < totalLen.toNat := by omega
    have hread : (Probe.ask (terminated ids).length : PciProbe _).Always
        (ReadsBelow totalLen.toNat) m := (Probe.always_ask _).mpr hp
    rw [classLoop, if_pos hp, (Probe.Leads.bind hread _).always_iff, Probe.val_ask,
      (List.cons.inj htail).1, if_pos rfl]
    exact Probe.always_pure _

theorem classCodeConfined_of_settled (dev : PciDevice)
    (h : EndsSettled (segment m 0 totalLen.toNat)) : ClassCodeConfined totalLen dev m := by
  have hinside := always_extractClassCode_settled dev h
  exact ⟨hinside, fun m' hagree => congrArg Prod.fst (Probe.run_congr hinside hagree)⟩

/-- The data alone decide just when a last string without NUL is settled. -/
theorem classCodeConfined_iff (totalLen : UInt64) (dev : PciDevice) (m : Mem) :
    ClassCodeConfined totalLen dev m ↔ EndsSettled (segment m 0 totalLen.toNat) := by
  constructor
  · intro h ids t hdata hids hne ht
    obtain ⟨rounds, best, hrounds, hiff⟩ := always_extractClassCode_rest dev hdata hids
    obtain ⟨_, htail, hlen⟩ := segment_append m hdata
    have hpos : 0 < t.length := List.length_pos_iff.mpr hne
    obtain ⟨rounds, rfl⟩ := Nat.exists_eq_add_one_of_ne_zero (n := rounds) (by omega)
    have hlimit := totalLen.toNat_lt
    rw [Nat.zero_add] at htail
    exact (always_classLoop_last htail ht hne hlen.symm (by unfold stringLimit; omega)).mp
      (hiff.mp h.inside)
  · exact classCodeConfined_of_settled dev

end Confined

/-- `CC_03` without its NUL, in front of `0C` and a NUL. -/
def cutIds : List UInt8 := [67, 67, 95, 48, 51, 48, 67, 0]

/-- Behind the same five bytes another buffer gives another subclass. -/
theorem cutIds_leak : (∀ i < 5, memOf cutIds i = memOf (cutIds.take 5) i) ∧
    ((extractClassCode 5 {}).val (memOf cutIds)).2.subclass ≠
      ((extractClassCode 5 {}).val (memOf (cutIds.take 5))).2.subclass := by
  decide

end HwMon
