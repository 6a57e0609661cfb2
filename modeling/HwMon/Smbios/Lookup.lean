import HwMon.Smbios.Walk

/-!
# String lookup and structure walk

`smbios_get_string` follows strings up to the end of the table, and
`smbios_next_structure` searches for two NULs. A string that the first finds
ends before the position that the second returns.
-/

namespace HwMon
set_option autoImplicit false

/-- `t` stands at `p`, and its NUL is before `stop`. -/
def TextAt (m : Mem) (stop p : Nat) (t : List UInt8) : Prop :=
  (t ≠ [] ∧ 0 ∉ t) ∧ segment m p (t.length + 1) = t ++ [0] ∧ p + (t.length + 1) ≤ stop

/-- The bytes from `p` to `q` are the strings `ss`, each with its NUL. -/
def StringsTo (m : Mem) (p : Nat) (ss : List (List UInt8)) (q : Nat) : Prop :=
  (∀ s ∈ ss, s ≠ [] ∧ 0 ∉ s) ∧ segment m p (terminated ss).length = terminated ss ∧
    q = p + (terminated ss).length

section Strings
variable {m : Mem} {stop p q : Nat} {s t : List UInt8} {ss : List (List UInt8)}

theorem stringsTo_nil : StringsTo m p [] q ↔ q = p := by
  constructor
  · intro h
    exact h.2.2
  · intro h
    exact ⟨fun s hs => absurd hs List.not_mem_nil, rfl, h⟩

theorem stringsTo_cons :
    StringsTo m p (s :: ss) q ↔ (s ≠ [] ∧ 0 ∉ s) ∧ segment m p (s.length + 1) = s ++ [0] ∧
      StringsTo m (p + (s.length + 1)) ss q := by
  have hlen : (terminated (s :: ss)).length = (s.length + 1) + (terminated ss).length := by
    rw [terminated_cons, List.length_append, List.length_append, List.length_singleton]
  unfold StringsTo
  rw [hlen, segment_add, terminated_cons]
  constructor
  · intro h
    obtain ⟨htext, hbytes, hq⟩ := h
    obtain ⟨hs, hss⟩ := List.append_inj hbytes (by simp)
    exact ⟨htext s List.mem_cons_self, hs, fun x hx => htext x (List.mem_cons_of_mem s hx), hss,
      by omega⟩
  · intro h
    obtain ⟨hs, hbytes, htext, hss, hq⟩ := h
    refine ⟨?_, by rw [hbytes, hss], by omega⟩
    intro x hx
    rcases List.mem_cons.mp hx with rfl | hx
    · exact hs
    · exact htext x hx

theorem StringsTo.le (h : StringsTo m p ss q) : p ≤ q := by
  have hq := h.2.2
  omega

/-- What `strnlen` sees of a string that ends in time. -/
theorem takeWhile_segment {k : Nat} (hz : 0 ∉ s) (h : segment m p (s.length + 1) = s ++ [0])
    (hk : s.length + 1 ≤ k) : (segment m p k).takeWhile (· ≠ 0) = s := by
  obtain ⟨d, rfl⟩ := Nat.exists_eq_add_of_le hk
  rw [segment_add, h, List.append_assoc, List.singleton_append, takeWhile_noNul hz]

/-- What it says about the bytes when it stops early. -/
theorem segment_takeWhile {k : Nat} (h : (segment m p k).takeWhile (· ≠ 0) = s)
    (hk : s.length ≠ k) : 0 ∉ s ∧ segment m p (s.length + 1) = s ++ [0] ∧ s.length + 1 ≤ k := by
  have hle := (List.takeWhile_prefix (l := segment m p k) (· ≠ 0)).length_le
  rw [h, segment_length] at hle
  have hlt : s.length < k := Nat.lt_of_le_of_ne hle hk
  have hsplit := List.takeWhile_append_dropWhile (p := (· ≠ 0)) (l := segment m p k)
  have hnoNul : 0 ∉ s := by
    intro hz
    rw [← h] at hz
    simpa using List.mem_takeWhile_imp hz
  have hdrop : (segment m p k).dropWhile (· ≠ 0) ≠ [] := by
    intro hnil
    rw [h, hnil, List.append_nil] at hsplit
    exact hk (by rw [hsplit, segment_length])
  obtain ⟨b, r, hbr⟩ := List.exists_cons_of_ne_nil hdrop
  have hb : b = 0 := by
    have hhead := List.head_dropWhile_not (fun b : UInt8 => decide (b ≠ 0)) hdrop
    simp only [hbr, List.head_cons] at hhead
    simpa using hhead
  rw [h, hbr, hb] at hsplit
  refine ⟨hnoNul, ?_, hlt⟩
  rw [← segment_take m p k (s.length + 1) hlt, ← hsplit, ← List.singleton_append,
    ← List.append_assoc, List.take_left' (by simp)]

/-- The string that is passed or found first is the one that `strnlen` sees at `p`. -/
theorem stringsTo_first (hs : (segment m p (stop - p)).takeWhile (· ≠ 0) = s)
    (hss : StringsTo m p ss q) (ht : TextAt m stop q t) :
    (s ≠ [] ∧ s.length + 1 ≤ stop - p) ∧
      ((ss = [] ∧ q = p ∧ t = s) ∨
        ∃ rest, ss = s :: rest ∧ StringsTo m (p + (s.length + 1)) rest q) := by
  cases ss with
  | nil =>
    have hq := stringsTo_nil.mp hss
    subst q
    have hroom := ht.2.2
    have hts := takeWhile_segment (k := stop - p) ht.1.2 ht.2.1 (by omega)
    rw [hs] at hts
    subst t
    exact ⟨⟨ht.1.1, by omega⟩, Or.inl ⟨rfl, rfl, rfl⟩⟩
  | cons x rest =>
    obtain ⟨hx, hbytes, hrest⟩ := stringsTo_cons.mp hss
    have hle := hrest.le
    have hroom := ht.2.2
    have hxs := takeWhile_segment (k := stop - p) hx.2 hbytes (by omega)
    rw [hs] at hxs
    subst x
    exact ⟨⟨hx.1, by omega⟩, Or.inr ⟨rest, rfl, hrest⟩⟩

end Strings

section Lookup
variable {m : Mem} {stop : Nat}

/-- String number `n` of those from `p`, the first being number `k`, stands at `q`. -/
def NumberedAt (m : Mem) (stop p k n q : Nat) : Prop :=
  ∃ ss t, StringsTo m p ss q ∧ ss.length + k = n ∧ TextAt m stop q t

/-- The strings from `p` are the one that ends in time and those after it. -/
theorem numberedAt_succ {p k n q : Nat} {s : List UInt8}
    (hs : (segment m p (stop - p)).takeWhile (· ≠ 0) = s) (hend : s.length ≠ stop - p)
    (hempty : s ≠ []) (hne : k ≠ n) :
    NumberedAt m stop p k n q ↔ NumberedAt m stop (p + (s.length + 1)) (k + 1) n q := by
  obtain ⟨hnoNul, hbytes, -⟩ := segment_takeWhile hs hend
  constructor
  · intro hfound
    obtain ⟨ss, t, hss, hcount, ht⟩ := hfound
    rcases (stringsTo_first hs hss ht).2 with hnil | hcons
    · obtain ⟨rfl, -, -⟩ := hnil
      rw [List.length_nil] at hcount
      omega
    · obtain ⟨rest, rfl, hrest⟩ := hcons
      rw [List.length_cons] at hcount
      exact ⟨rest, t, hrest, by omega, ht⟩
  · intro hfound
    obtain ⟨ss, t, hss, hcount, ht⟩ := hfound
    refine ⟨s :: ss, t, stringsTo_cons.mpr ⟨⟨hempty, hnoNul⟩, hbytes, hss⟩, ?_, ht⟩
    rw [List.length_cons]
    omega

/-- Number `n` itself is the string at `p`. -/
theorem numberedAt_self {p n q : Nat} {s : List UInt8}
    (hs : (segment m p (stop - p)).takeWhile (· ≠ 0) = s) (hend : s.length ≠ stop - p)
    (hempty : s ≠ []) : NumberedAt m stop p n n q ↔ p = q := by
  obtain ⟨hnoNul, hbytes, hroom⟩ := segment_takeWhile hs hend
  constructor
  · intro hfound
    obtain ⟨ss, t, hss, hcount, -⟩ := hfound
    have hnil : ss = [] := List.eq_nil_of_length_eq_zero (by omega)
    subst ss
    exact (stringsTo_nil.mp hss).symm
  · intro hq
    subst q
    exact ⟨[], s, stringsTo_nil.mpr rfl, Nat.zero_add n, ⟨hempty, hnoNul⟩, hbytes, by omega⟩

/-- The loop, entered with `current` strings counted. While the number is not
reached the counter stays below it, so it does not wrap. -/
theorem smbiosGetStringFrom_eq_some_iff (index : UInt8) (p : Nat) (current : UInt8)
    (h : current.toNat ≤ index.toNat) (q : Nat) :
    (smbiosGetStringFrom stop index p current).val m = some q ↔
      NumberedAt m stop p current.toNat index.toNat q := by
  fun_induction smbiosGetStringFrom stop index p current with
  | case1 p current hlt maxLen ih =>
    simp only [↓Probe.val_bind, ↓Probe.val_ite, Probe.val_pure, strnlen_val]
    generalize hs : (segment m p (stop - p)).takeWhile (· ≠ 0) = s
    by_cases hend : s.length = stop - p
    · rw [if_pos hend]
      refine ⟨fun hq => absurd hq.symm (Option.some_ne_none q), fun hfound => ?_⟩
      obtain ⟨ss, t, hss, -, ht⟩ := hfound
      have hlt := (stringsTo_first hs hss ht).1.2
      omega
    by_cases hempty : s = []
    · rw [if_neg hend, if_pos (by rw [hempty]; rfl)]
      refine ⟨fun hq => absurd hq.symm (Option.some_ne_none q), fun hfound => ?_⟩
      obtain ⟨ss, t, hss, -, ht⟩ := hfound
      exact absurd hempty (stringsTo_first hs hss ht).1.1
    rw [if_neg hend, if_neg (by simpa using hempty)]
    by_cases hidx : current = index
    · rw [if_pos hidx, Option.some.injEq, hidx]
      exact (numberedAt_self hs hend hempty).symm
    · have hne : current.toNat ≠ index.toNat := fun he => hidx (UInt8.toNat_inj.mp he)
      have hnext := counter_succ h hidx
      rw [if_neg hidx, ih s.length (by omega), hnext, Nat.add_assoc]
      exact (numberedAt_succ hs hend hempty hne).symm
  | case2 p current hlt =>
    refine ⟨fun hq => absurd hq.symm (Option.some_ne_none q), fun hfound => ?_⟩
    obtain ⟨ss, t, hss, -, ht⟩ := hfound
    have hle := hss.le
    have hroom := ht.2.2
    omega

/-- A string that the lookup passes or finds ends before the next structure. -/
theorem textAt_before_next {lo p : Nat} {ss : List (List UInt8)} {t : List UInt8}
    (hss : StringsTo m lo ss p) (ht : TextAt m stop p t) {next : Nat}
    (hnext : (skipStringSet stop lo : SmbiosProbe _).val m = some next) :
    p + (t.length + 1) ≤ next := by
  obtain ⟨htexts, hbytes, hp⟩ := hss
  obtain ⟨htext, htbytes, hroom⟩ := ht
  rw [skipStringSet_val] at hnext
  cases hclose : closeAt (segment m lo (stop - lo)) with
  | none =>
    rw [hclose] at hnext
    simp only at hnext
    split at hnext
    · cases hnext
      exact hroom
    · cases hnext
  | some n =>
    rw [hclose] at hnext
    cases hnext
    have hlen : (terminated (ss ++ [t])).length = (terminated ss).length + (t.length + 1) := by
      rw [terminated, List.flatMap_append, List.length_append, terminated]
      simp
    have hall : segment m lo (terminated (ss ++ [t])).length = terminated (ss ++ [t]) := by
      rw [hlen, segment_add, hbytes, ← hp, htbytes, terminated, terminated, List.flatMap_append]
      simp
    have hfit : (terminated (ss ++ [t])).length ≤ stop - lo := by omega
    obtain ⟨d, hd⟩ := Nat.exists_eq_add_of_le hfit
    rw [hd, segment_add, hall] at hclose
    have htexts' : ∀ s ∈ ss ++ [t], s ≠ [] ∧ 0 ∉ s := by
      intro s hs
      rcases List.mem_append.mp hs with hs | hs
      · exact htexts s hs
      · exact List.mem_singleton.mp hs ▸ htext
    have hlt := closeAt_terminated (by simp) htexts' hclose
    omega

theorem skipStringSet_le {lo next : Nat}
    (hnext : (skipStringSet stop lo : SmbiosProbe _).val m = some next) : next ≤ stop := by
  rw [skipStringSet_val] at hnext
  cases hclose : closeAt (segment m lo (stop - lo)) with
  | none =>
    rw [hclose] at hnext
    simp only at hnext
    split at hnext
    · cases hnext
      exact Nat.le_refl stop
    · cases hnext
  | some n =>
    rw [hclose] at hnext
    cases hnext
    obtain ⟨htwo, hbound⟩ := closeAt_bounds hclose
    rw [segment_length] at hbound
    omega

/-- The lookup returns exactly the position of string number `index` of the
structure's own string set; there the counter has the value `index`, one more
than the number of strings passed. -/
theorem smbiosGetString_eq_some_iff (m : Mem) (stop s len : Nat) (index : UInt8) (p : Nat) :
    (smbiosGetString s len stop index).val m = some p ↔
      ∃ ss t, StringsTo m (s + len) ss p ∧ ss.length + 1 = index.toNat ∧
        TextAt m (((smbiosNextStructure s len stop).val m).getD stop) p t := by
  by_cases h0 : index = 0
  · rw [smbiosGetString, if_pos h0, h0]
    refine ⟨fun hp => absurd hp.symm (Option.some_ne_none p), fun hfound => ?_⟩
    obtain ⟨ss, t, _, hcount, _⟩ := hfound
    exact absurd hcount (Nat.succ_ne_zero ss.length)
  have hne : index.toNat ≠ 0 := fun he => h0 (UInt8.toNat_inj.mp he)
  have hone : (1 : UInt8).toNat = 1 := rfl
  rw [smbiosGetString, if_neg h0, smbiosGetStringFrom_eq_some_iff index _ 1 (by omega) p, hone]
  unfold smbiosNextStructure
  constructor
  · intro hfound
    obtain ⟨ss, t, hss, hcount, ht⟩ := hfound
    refine ⟨ss, t, hss, hcount, ht.1, ht.2.1, ?_⟩
    cases hnext : (skipStringSet stop (s + len) : SmbiosProbe _).val m with
    | none => exact ht.2.2
    | some next => exact textAt_before_next hss ht hnext
  · intro hfound
    obtain ⟨ss, t, hss, hcount, htext, hbytes, hroom⟩ := hfound
    refine ⟨ss, t, hss, hcount, htext, hbytes, ?_⟩
    cases hnext : (skipStringSet stop (s + len) : SmbiosProbe _).val m with
    | none =>
      rw [hnext] at hroom
      exact hroom
    | some next =>
      rw [hnext] at hroom
      exact Nat.le_trans hroom (skipStringSet_le hnext)

end Lookup
end HwMon
