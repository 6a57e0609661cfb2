import HwMon.Lib.Bytes

/-!
# The first occurrence of a key

`findSub key l` is the first place of a list where `key` starts and `afterSub`
the rest of the list behind it there. `strstr` searches a string in memory byte
by byte; it finds what `findSub` finds and reads past the end of a text without
a NUL just when the key does not occur in it.
-/

namespace HwMon
set_option autoImplicit false

section Lists
variable {α : Type} [DecidableEq α]

def findSub (key : List α) : List α → Option Nat
  | [] => if key = [] then some 0 else none
  | a :: l => if key <+: a :: l then some 0 else (findSub key l).map (· + 1)

/-- The list behind the first occurrence of `key`. -/
def afterSub (key l : List α) : Option (List α) :=
  (findSub key l).map fun i => l.drop (i + key.length)

variable {key l : List α}

theorem findSub_eq_some_iff {i : Nat} :
    findSub key l = some i ↔ key <+: l.drop i ∧ i ≤ l.length ∧ ∀ j < i, ¬key <+: l.drop j := by
  induction l generalizing i with
  | nil =>
    rw [findSub]
    split
    · rename_i hkey
      subst hkey
      constructor
      · intro h
        cases h
        exact ⟨List.nil_prefix, Nat.le_refl _, fun j hj => absurd hj (Nat.not_lt_zero j)⟩
      · intro h
        rw [Nat.le_zero.mp h.2.1]
    · rename_i hkey
      constructor
      · intro h
        cases h
      · intro h
        rw [List.drop_nil] at h
        exact absurd (List.prefix_nil.mp h.1) hkey
  | cons a l ih =>
    rw [findSub]
    split
    · rename_i hpre
      constructor
      · intro h
        cases h
        exact ⟨hpre, Nat.zero_le _, fun j hj => absurd hj (Nat.not_lt_zero j)⟩
      · intro h
        cases i with
        | zero => rfl
        | succ i => exact absurd hpre (h.2.2 0 (Nat.succ_pos i))
    · rename_i hpre
      cases i with
      | zero =>
        constructor
        · intro h
          obtain ⟨k, _, hk⟩ := Option.map_eq_some_iff.mp h
          exact absurd hk (Nat.succ_ne_zero k)
        · intro h
          exact absurd h.1 hpre
      | succ i =>
        have hmap : (findSub key l).map (· + 1) = some (i + 1) ↔ findSub key l = some i := by
          rw [Option.map_eq_some_iff]
          constructor
          · intro h
            obtain ⟨k, hk, heq⟩ := h
            rw [hk, Nat.succ.inj heq]
          · intro h
            exact ⟨i, h, rfl⟩
        rw [hmap, ih, List.drop_succ_cons, List.length_cons, Nat.add_le_add_iff_right]
        refine and_congr_right fun _ => and_congr_right fun _ => ?_
        constructor
        · intro h j hj
          cases j with
          | zero => exact hpre
          | succ j => exact h j (Nat.lt_of_succ_lt_succ hj)
        · intro h j hj
          exact h (j + 1) (Nat.succ_lt_succ hj)

/-- An occurrence is inside the list. -/
theorem findSub_bound {i : Nat} (h : findSub key l = some i) : i + key.length ≤ l.length := by
  obtain ⟨hpre, hle, _⟩ := findSub_eq_some_iff.mp h
  have hlen := hpre.length_le
  rw [List.length_drop] at hlen
  omega

theorem findSub_of_start (h : key <+: l) : findSub key l = some 0 :=
  findSub_eq_some_iff.mpr ⟨h, Nat.zero_le _, fun j hj => absurd hj (Nat.not_lt_zero j)⟩

theorem not_prefix_of_findSub (h : findSub key l = none) : ¬key <+: l := fun hpre =>
  Option.some_ne_none 0 ((findSub_of_start hpre).symm.trans h)

theorem findSub_cons_of_not {a : α} (h : ¬key <+: a :: l) :
    findSub key (a :: l) = (findSub key l).map (· + 1) :=
  if_neg h

theorem afterSub_cons_of_start {a : α} (h : key <+: a :: l) :
    afterSub key (a :: l) = some ((a :: l).drop key.length) := by
  rw [afterSub, findSub_of_start h, Option.map_some, Nat.zero_add]

theorem afterSub_cons_of_not {a : α} (h : ¬key <+: a :: l) :
    afterSub key (a :: l) = afterSub key l := by
  rw [afterSub, findSub_cons_of_not h, Option.map_map, afterSub]
  refine congrArg (fun f => Option.map f (findSub key l)) (funext fun i => ?_)
  rw [Function.comp_apply, Nat.add_right_comm, List.drop_succ_cons]

/-- Up to the first separator a key that ends with the separator occurs at the end or
not at all. -/
theorem afterSub_separator {k pre : List α} {c : α} (hk : c ∉ k) (hpre : c ∉ pre) (r : List α) :
    afterSub (k ++ [c]) (pre ++ c :: r) =
      if k <:+ pre then some r else afterSub (k ++ [c]) r := by
  induction pre with
  | nil =>
    rw [List.nil_append]
    by_cases hnil : k = []
    · subst hnil
      have hstart : ([] ++ [c]) <+: c :: r := List.prefix_append [c] r
      rw [afterSub_cons_of_start hstart, if_pos (List.suffix_refl _)]
      rfl
    · have hstart : ¬(k ++ [c]) <+: c :: r := by
        obtain ⟨b, k, rfl⟩ := List.exists_cons_of_ne_nil hnil
        intro h
        exact hk ((List.cons_prefix_cons.mp h).1 ▸ List.mem_cons_self)
      rw [afterSub_cons_of_not hstart, if_neg fun h => hnil (List.suffix_nil.mp h)]
  | cons a pre ih =>
    rw [List.cons_append]
    by_cases heq : k = a :: pre
    · subst heq
      have hlist : a :: (pre ++ c :: r) = (a :: pre ++ [c]) ++ r := by simp
      have hstart : (a :: pre ++ [c]) <+: a :: (pre ++ c :: r) := hlist ▸ List.prefix_append _ r
      rw [afterSub_cons_of_start hstart, if_pos (List.suffix_refl _), hlist, List.drop_left]
    · have hstart : ¬(k ++ [c]) <+: a :: (pre ++ c :: r) := by
        rintro ⟨u, hu⟩
        have happ : k ++ c :: u = (a :: pre) ++ c :: r := by simpa using hu
        rcases List.append_eq_append_iff.mp happ with ⟨mid, hleft, hright⟩ | ⟨mid, hleft, hright⟩
        · cases mid with
          | nil => exact heq (by simpa using hleft.symm)
          | cons b mid =>
            obtain ⟨rfl, _⟩ := List.cons.inj hright
            exact hpre (hleft ▸ List.mem_append_right _ List.mem_cons_self)
        · cases mid with
          | nil => exact heq (by simpa using hleft)
          | cons b mid =>
            obtain ⟨rfl, _⟩ := List.cons.inj hright
            exact hk (hleft ▸ List.mem_append_right _ List.mem_cons_self)
      have hsuffix : k <:+ a :: pre ↔ k <:+ pre := by
        rw [List.suffix_cons_iff]
        exact or_iff_right heq
      rw [afterSub_cons_of_not hstart, ih fun h => hpre (List.mem_cons_of_mem a h)]
      simp only [hsuffix]

end Lists

section Reads
variable {ω : Type}

/-- Compare the string at `p` with `key`, up to the first byte that differs. -/
def startsWith (p : Nat) : List UInt8 → ByteProbe ω Bool
  | [] => pure true
  | k :: key => do
    let b ← .ask p
    if b = k then startsWith (p + 1) key else pure false

/-- `strstr` from `p`, for strings of less than `limit` bytes. -/
def strstr (key : List UInt8) (p : Nat) : Nat → ByteProbe ω (Option Nat)
  | 0 => pure none
  | limit + 1 => do
    let found ← startsWith p key
    if found = true then pure (some p)
    else do
      let b ← .ask p
      if b = 0 then pure none else strstr key (p + 1) limit

theorem startsWith_cons (p : Nat) (k : UInt8) (key : List UInt8) :
    (startsWith p (k :: key) : ByteProbe ω _) = (do
      let b ← .ask p
      if b = k then startsWith (p + 1) key else pure false) := rfl

theorem strstr_succ (key : List UInt8) (p limit : Nat) :
    (strstr key p (limit + 1) : ByteProbe ω _) = (do
      let found ← startsWith p key
      if found = true then pure (some p)
      else do
        let b ← .ask p
        if b = 0 then pure none else strstr key (p + 1) limit) := rfl

variable {m : Mem} {key t : List UInt8} {p : Nat}

theorem startsWith_val (p : Nat) (key : List UInt8) :
    (startsWith p key : ByteProbe ω _).val m = decide (segment m p key.length = key) := by
  induction key generalizing p with
  | nil => rfl
  | cons k key ih =>
    simp only [startsWith_cons, ↓Probe.val_bind, Probe.val_ask, ↓Probe.val_ite, ih, Probe.val_pure,
      List.length_cons, segment_succ, List.cons.injEq]
    split
    · rename_i hb
      simp [hb]
    · rename_i hb
      simp [hb]

/-- The reads of a comparison lie in the key's length and, where the text ends with
a NUL, in the text. -/
theorem always_startsWith {P : Access Nat ω → Prop} (hzero : 0 ∉ key)
    (h : ∀ i, p ≤ i → i < p + key.length → 0 ∉ segment m p (i - p) → P (.read i)) :
    (startsWith p key).Always P m := by
  induction key generalizing p with
  | nil => exact Probe.always_pure _
  | cons k key ih =>
    have hk : k ≠ 0 := fun hk => hzero (hk ▸ List.mem_cons_self)
    simp only [startsWith_cons, Probe.always_bind, Probe.always_ask]
    refine ⟨h p (Nat.le_refl p) (by simp) (by simp), ?_⟩
    refine Probe.always_ite (fun hb => ?_) fun _ => Probe.always_pure _
    apply ih fun hmem => hzero (List.mem_cons_of_mem k hmem)
    intro i hle hlt hno
    rw [Probe.val_ask] at hb
    refine h i (by omega) (by rw [List.length_cons]; omega) ?_
    have hi : i - p = i - (p + 1) + 1 := by omega
    rw [hi, segment_succ, hb]
    intro hmem
    rcases List.mem_cons.mp hmem with hmem | hmem
    · exact hk hmem.symm
    · exact hno hmem

/-- A comparison that succeeds has read the whole key. -/
theorem startsWith_reads (h : segment m p key.length = key) {i : Nat} (hle : p ≤ i)
    (hlt : i < p + key.length) : .read i ∈ (startsWith p key : ByteProbe ω _).log m := by
  induction key generalizing p with
  | nil => exact absurd hlt (Nat.not_lt.mpr hle)
  | cons k key ih =>
    obtain ⟨hb, hrest⟩ := List.cons.inj h
    simp only [startsWith_cons, ↓Probe.log_bind, Probe.log_ask, Probe.val_ask, ↓Probe.log_ite, hb,
      if_true]
    rcases Nat.eq_or_lt_of_le hle with rfl | hlt'
    · exact List.mem_append_left _ (List.mem_singleton.mpr rfl)
    · refine List.mem_append_right _ (ih hrest hlt' ?_)
      rw [List.length_cons] at hlt
      omega

theorem segment_eq_iff_starts (hm : segment m p t.length = t) (hlen : key.length ≤ t.length) :
    segment m p key.length = key ↔ key <+: t := by
  rw [List.prefix_iff_eq_take, ← segment_take m p t.length key.length hlen, hm, eq_comm]

theorem segment_eq_iff_starts_of_nul (hm : segment m p (t.length + 1) = t ++ [0])
    (hzero : 0 ∉ key) : segment m p key.length = key ↔ key <+: t := by
  obtain ⟨htext, hnul, _⟩ := segment_append m hm
  rcases Nat.lt_or_ge t.length key.length with hlen | hlen
  · refine iff_of_false ?_ fun h => absurd h.length_le (Nat.not_le.mpr hlen)
    intro h
    have hat := segment_getElem? m p key.length t.length hlen
    have hend : m (p + t.length) = 0 := (List.cons.inj hnul).1
    rw [h, hend] at hat
    exact hzero (List.mem_of_getElem? hat)
  · exact segment_eq_iff_starts htext hlen

section Steps
variable {limit : Nat}

theorem strstr_of_start (h : segment m p key.length = key) :
    (strstr key p (limit + 1) : ByteProbe ω _).val m = some p := by
  simp only [strstr_succ, ↓Probe.val_bind, startsWith_val, ↓Probe.val_ite, decide_eq_true h,
    if_true, Probe.val_pure]

theorem strstr_of_not (h : segment m p key.length ≠ key) :
    (strstr key p (limit + 1) : ByteProbe ω _).val m =
      if m p = 0 then none else (strstr key (p + 1) limit : ByteProbe ω _).val m := by
  simp only [strstr_succ, ↓Probe.val_bind, startsWith_val, ↓Probe.val_ite, decide_eq_false h,
    Probe.val_ask, Bool.false_eq_true, if_false, Probe.val_pure]

theorem always_strstr_succ {P : Access Nat ω → Prop} (hstart : (startsWith p key).Always P m)
    (hp : segment m p key.length ≠ key → P (.read p))
    (hnext : segment m p key.length ≠ key → m p ≠ 0 → (strstr key (p + 1) limit).Always P m) :
    (strstr key p (limit + 1)).Always P m := by
  simp only [strstr_succ, Probe.always_bind, startsWith_val]
  refine ⟨hstart, Probe.always_ite (fun _ => Probe.always_pure _) fun hfalse => ?_⟩
  have hne : segment m p key.length ≠ key := fun h => hfalse (decide_eq_true h)
  simp only [Probe.always_bind, Probe.always_ask, Probe.val_ask]
  exact ⟨hp hne, Probe.always_ite (fun _ => Probe.always_pure _) (hnext hne)⟩

end Steps

section Texts
variable {P : Access Nat ω → Prop} {limit : Nat}

/-- Where the key occurs in the text, `strstr` finds its first occurrence and reads no byte
behind the text. -/
theorem strstr_found {i : Nat} (hkey : 0 ∉ key) (hm : segment m p t.length = t) (ht : 0 ∉ t)
    (h : findSub key t = some i) (hlimit : t.length < limit)
    (hP : ∀ j, p ≤ j → j < p + t.length → P (.read j)) :
    (strstr key p limit : ByteProbe ω _).val m = some (p + i) ∧
      (strstr key p limit).Always P m := by
  have hlen := findSub_bound h
  induction t generalizing p i limit with
  | nil =>
    obtain ⟨limit, rfl⟩ := Nat.exists_eq_add_one_of_ne_zero (Nat.ne_zero_of_lt hlimit)
    obtain rfl : key = [] := List.eq_nil_of_length_eq_zero (by rw [List.length_nil] at hlen; omega)
    obtain rfl : 0 = i := Option.some.inj h
    exact ⟨strstr_of_start rfl, always_strstr_succ (Probe.always_pure _)
      (fun hne => absurd rfl hne) fun hne => absurd rfl hne⟩
  | cons a t ih =>
    obtain ⟨limit, rfl⟩ := Nat.exists_eq_add_one_of_ne_zero (Nat.ne_zero_of_lt hlimit)
    have hstarts := segment_eq_iff_starts hm (Nat.le_trans (Nat.le_add_left _ _) hlen)
    have hfirst : P (.read p) := hP p (Nat.le_refl p) (by simp)
    have hstart : (startsWith p key).Always P m :=
      always_startsWith hkey fun j hle hlt _ => hP j hle (by omega)
    by_cases hkt : key <+: a :: t
    · rw [findSub_of_start hkt] at h
      obtain rfl : 0 = i := Option.some.inj h
      have heq := hstarts.mpr hkt
      exact ⟨strstr_of_start heq,
        always_strstr_succ hstart (fun _ => hfirst) fun hne => absurd heq hne⟩
    · rw [findSub_cons_of_not hkt] at h
      obtain ⟨i, hi, rfl⟩ := Option.map_eq_some_iff.mp h
      obtain ⟨hhead, htail⟩ := List.cons.inj hm
      have hne : segment m p key.length ≠ key := fun heq => hkt (hstarts.mp heq)
      have hb : m p ≠ 0 := fun hz => ht (hhead.symm.trans hz ▸ List.mem_cons_self)
      rw [List.length_cons] at hlimit hP
      obtain ⟨hval, halways⟩ := ih htail (fun hz => ht (List.mem_cons_of_mem a hz)) hi
        (Nat.lt_of_succ_lt_succ hlimit) (fun j hle hlt => hP j (by omega) (by omega))
        (findSub_bound hi)
      refine ⟨?_, always_strstr_succ hstart (fun _ => hfirst) fun _ _ => halways⟩
      rw [strstr_of_not hne, if_neg hb, hval, Nat.add_assoc, Nat.add_comm 1]

theorem always_startsWith_text (hkey : 0 ∉ key) (hm : segment m p (t.length + 1) = t ++ [0])
    (hP : ∀ j, p ≤ j → j ≤ p + t.length → P (.read j)) : (startsWith p key).Always P m := by
  refine always_startsWith hkey fun j hle _ hno => hP j hle ?_
  by_contra hlt
  have hnul := segment_getElem? m p (j - p) t.length (by omega)
  rw [(List.cons.inj (segment_append m hm).2.1).1] at hnul
  exact hno (List.mem_of_getElem? hnul)

/-- Where the key does not occur in a text that ends with a NUL, `strstr` reads no byte
behind the NUL. -/
theorem strstr_absent (hkey : 0 ∉ key) (hm : segment m p (t.length + 1) = t ++ [0])
    (h : findSub key t = none) (hlimit : t.length < limit)
    (hP : ∀ j, p ≤ j → j ≤ p + t.length → P (.read j)) :
    (strstr key p limit : ByteProbe ω _).val m = none ∧ (strstr key p limit).Always P m := by
  induction t generalizing p limit with
  | nil =>
    obtain ⟨limit, rfl⟩ := Nat.exists_eq_add_one_of_ne_zero (Nat.ne_zero_of_lt hlimit)
    have hb : m p = 0 := (List.cons.inj hm).1
    have hne : segment m p key.length ≠ key := fun heq =>
      not_prefix_of_findSub h ((segment_eq_iff_starts_of_nul hm hkey).mp heq)
    refine ⟨?_, always_strstr_succ (always_startsWith_text hkey hm hP)
      (fun _ => hP p (Nat.le_refl p) (Nat.le_add_right p _)) fun _ hnz => absurd hb hnz⟩
    rw [strstr_of_not hne, if_pos hb]
  | cons a t ih =>
    obtain ⟨limit, rfl⟩ := Nat.exists_eq_add_one_of_ne_zero (Nat.ne_zero_of_lt hlimit)
    have hkt := not_prefix_of_findSub h
    have hne : segment m p key.length ≠ key := fun heq =>
      hkt ((segment_eq_iff_starts_of_nul hm hkey).mp heq)
    rw [findSub_cons_of_not hkt, Option.map_eq_none_iff] at h
    rw [List.length_cons] at hlimit
    have hlen := hP
    rw [List.length_cons] at hlen
    obtain ⟨hval, halways⟩ := ih (p := p + 1) (List.cons.inj hm).2 h
      (Nat.lt_of_succ_lt_succ hlimit) fun j hle hlt => hlen j (by omega) (by omega)
    refine ⟨?_, always_strstr_succ (always_startsWith_text hkey hm hP)
      (fun _ => hP p (Nat.le_refl p) (Nat.le_add_right p _)) fun _ _ => halways⟩
    rw [strstr_of_not hne, hval, ite_self]

/-- Where the key does not occur in a text without NUL, `strstr` reads the byte behind the
text or a later one. -/
theorem strstr_past (hm : segment m p t.length = t) (ht : 0 ∉ t) (h : findSub key t = none)
    (hlimit : t.length < limit) :
    ∃ j, p + t.length ≤ j ∧ .read j ∈ (strstr key p limit : ByteProbe ω _).log m := by
  induction t generalizing p limit with
  | nil =>
    obtain ⟨limit, rfl⟩ := Nat.exists_eq_add_one_of_ne_zero (Nat.ne_zero_of_lt hlimit)
    have hkey : key ≠ [] := fun hnil => not_prefix_of_findSub h (hnil ▸ List.nil_prefix)
    obtain ⟨k, key, rfl⟩ := List.exists_cons_of_ne_nil hkey
    refine ⟨p, Nat.le_refl p, ?_⟩
    simp only [strstr_succ, startsWith_cons, ↓Probe.log_bind, Probe.log_ask]
    exact List.mem_append_left _ (List.mem_append_left _ (List.mem_singleton.mpr rfl))
  | cons a t ih =>
    obtain ⟨limit, rfl⟩ := Nat.exists_eq_add_one_of_ne_zero (Nat.ne_zero_of_lt hlimit)
    have hkt := not_prefix_of_findSub h
    obtain ⟨hhead, htail⟩ := List.cons.inj hm
    simp only [strstr_succ, ↓Probe.log_bind, startsWith_val, ↓Probe.log_ite]
    by_cases heq : segment m p key.length = key
    · refine ⟨p + (a :: t).length, Nat.le_refl _, List.mem_append_left _ ?_⟩
      refine startsWith_reads heq (Nat.le_add_right p _) (Nat.add_lt_add_left ?_ p)
      by_contra hlen
      exact hkt ((segment_eq_iff_starts hm (Nat.not_lt.mp hlen)).mp heq)
    · rw [findSub_cons_of_not hkt, Option.map_eq_none_iff] at h
      rw [List.length_cons] at hlimit
      obtain ⟨j, hle, hread⟩ := ih (p := p + 1) htail
        (fun hz => ht (List.mem_cons_of_mem a hz)) h (Nat.lt_of_succ_lt_succ hlimit)
      have hb : m p ≠ 0 := fun hz => ht (hhead.symm.trans hz ▸ List.mem_cons_self)
      refine ⟨j, by rw [List.length_cons]; omega, List.mem_append_right _ ?_⟩
      rw [if_neg (by simp [heq]), Probe.val_ask, if_neg hb]
      exact List.mem_append_right _ hread

end Texts
end Reads
end HwMon
