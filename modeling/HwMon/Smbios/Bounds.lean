import HwMon.Smbios.Parser

/-!
# Memory safety of the SMBIOS parser

Each function of the parser stays between the start of its structure and the
end of the table. The walk composes these bounds.
-/

namespace HwMon
set_option autoImplicit false

/-- Reads lie in `[lo, stop)`, writes lie in their arrays, and no structure is
entered: what the handling of one structure does. -/
def SmbiosSafe (lo stop : Nat) : Access Nat SmbiosEvent → Prop
  | .read i => lo ≤ i ∧ i < stop
  | .note (.reach _) => False
  | .note (.deviceWrite slot) => slot < smbiosMaxMemoryDevices
  | .note (.charWrite size first count) =>
      (size = smbiosStrMax ∨ size = 37) ∧ first + count ≤ size

section Functions
variable {m : Mem} {lo stop : Nat}

theorem smbiosGetStringFrom_safe (index : UInt8) {p : Nat} (hp : lo ≤ p) (current : UInt8) :
    (smbiosGetStringFrom stop index p current).Always (SmbiosSafe lo stop) m := by
  fun_induction smbiosGetStringFrom stop index p current with
  | case1 p current hlt maxLen ih =>
    simp only [Probe.always_bind]
    refine ⟨always_strnlen fun i h1 h2 => ⟨by omega, by omega⟩, ?_⟩
    refine Probe.always_ite (fun _ => Probe.always_pure _) fun _ => ?_
    refine Probe.always_ite (fun _ => Probe.always_pure _) fun _ => ?_
    refine Probe.always_ite (fun _ => Probe.always_pure _) fun _ => ?_
    exact ih _ (by omega)
  | case2 p current hlt => exact Probe.always_pure _

theorem smbiosGetStringFrom_ge {index : UInt8} {p q : Nat} {current : UInt8}
    (h : (smbiosGetStringFrom stop index p current).val m = some q) : p ≤ q := by
  fun_induction smbiosGetStringFrom stop index p current with
  | case1 p current hlt maxLen ih =>
    simp only [↓Probe.val_bind, ↓Probe.val_ite, Probe.val_pure] at h
    split at h
    · cases h
    · split at h
      · cases h
      · split at h
        · cases h
          exact Nat.le_refl _
        · have hle := ih _ h
          omega
  | case2 p current hlt => cases h

theorem smbiosGetString_safe {s len : Nat} (hs : lo ≤ s) (index : UInt8) :
    (smbiosGetString s len stop index).Always (SmbiosSafe lo stop) m :=
  Probe.always_ite (fun _ => Probe.always_pure _)
    fun _ => smbiosGetStringFrom_safe index (Nat.le_add_right_of_le hs) 1

theorem copyStringField_safe {s len : Nat} (hs : lo ≤ s) (index : UInt8) :
    (copyStringField s len stop index smbiosStrMax).Always (SmbiosSafe lo stop) m := by
  have hmax : smbiosStrMax = 64 := rfl
  simp only [copyStringField, Probe.always_bind, Probe.always_note]
  refine ⟨⟨Or.inl rfl, by omega⟩, smbiosGetString_safe hs index, ?_⟩
  split
  · exact Probe.always_pure _
  · rename_i q hq
    have hge : lo ≤ q := by
      simp only [smbiosGetString, ↓Probe.val_ite, Probe.val_pure] at hq
      split at hq
      · cases hq
      · have hle := smbiosGetStringFrom_ge hq
        omega
    simp only [Probe.always_bind, Probe.always_note, Probe.always_pure, and_true]
    have hlen := strnlen_le (ω := SmbiosEvent) m q (stop - q)
    refine ⟨always_strnlen fun i h1 h2 => ⟨by omega, by omega⟩, always_readBytes ?_,
      ⟨Or.inl rfl, ?_⟩, ⟨Or.inl rfl, ?_⟩⟩
    · intro i h1 h2
      split at h2 <;> exact ⟨by omega, by omega⟩
    · split <;> omega
    · split <;> omega

theorem always_skipStringSet {ω : Type} {P : Access Nat ω → Prop} {p : Nat}
    (h : ∀ i, p - 1 ≤ i → i < stop → P (.read i)) : (skipStringSet stop p).Always P m := by
  fun_induction skipStringSet (ω := ω) stop p with
  | case1 p hlt ih =>
    have hnext := ih fun i h1 h2 => h i (by omega) h2
    simp only [Probe.always_bind, Probe.always_ask]
    refine ⟨h p (by omega) (by omega), Probe.always_ite (fun _ => ?_) fun _ => hnext⟩
    simp only [Probe.always_bind, Probe.always_ask]
    exact ⟨h (p + 1) (by omega) hlt,
      Probe.always_ite (fun _ => Probe.always_pure _) fun _ => hnext⟩
  | case2 p hlt heq =>
    simp only [Probe.always_bind, Probe.always_ask]
    refine ⟨h p (by omega) (by omega), Probe.always_ite (fun _ => ?_) fun _ => Probe.always_pure _⟩
    simp only [Probe.always_bind, Probe.always_ask]
    exact ⟨h (p - 1) (Nat.le_refl _) (by omega), Probe.always_ite (fun _ => Probe.always_pure _)
      fun _ => Probe.always_pure _⟩
  | case3 p hlt heq => exact Probe.always_pure _

theorem skipStringSet_safe {p : Nat} (hp : lo ≤ p - 1) :
    (skipStringSet stop p : SmbiosProbe _).Always (SmbiosSafe lo stop) m :=
  always_skipStringSet fun _ h1 h2 => ⟨Nat.le_trans hp h1, h2⟩

end Functions

section Structures
variable {m : Mem} {lo stop s : Nat} {hlen : UInt8}

theorem stringField_safe (hs : lo ≤ s) (hfit : s + hlen.toNat ≤ stop) {ok : Bool} {off : Nat}
    (hok : ok = true → off < hlen.toNat) (old : CStr smbiosStrMax) :
    (stringField ok s hlen stop off old).Always (SmbiosSafe lo stop) m := by
  refine Probe.always_ite (fun h => ?_) fun _ => Probe.always_pure _
  have hoff := hok h
  simp only [Probe.always_bind, Probe.always_ask]
  exact ⟨⟨by omega, by omega⟩, copyStringField_safe hs _⟩

theorem fieldOk_lt {off : Nat} (h : fieldOk hlen off = true) : off < hlen.toNat :=
  of_decide_eq_true h

variable (hs : lo ≤ s) (hfit : s + hlen.toNat ≤ stop)
include hs hfit

theorem byteField_safe {ok : Bool} {off : Nat} (hok : ok = true → off < hlen.toNat) :
    (byteField ok (s + off)).Always (SmbiosSafe lo stop) m := by
  refine Probe.always_ite (fun h => ?_) fun _ => Probe.always_pure _
  have hoff := hok h
  exact (Probe.always_ask _).mpr ⟨by omega, by omega⟩

theorem wordField_safe {ok : Bool} {off : Nat} (hok : ok = true → off + 2 ≤ hlen.toNat) :
    (wordField ok (s + off)).Always (SmbiosSafe lo stop) m := by
  refine Probe.always_ite (fun h => ?_) fun _ => Probe.always_pure _
  have hoff := hok h
  exact always_read16 fun i h1 h2 => ⟨by omega, by omega⟩

theorem parseBios_safe (out : SmbiosBiosInfo) :
    (parseBios s hlen stop out).Always (SmbiosSafe lo stop) m := by
  simp only [parseBios, Probe.always_bind, Probe.always_pure, and_true]
  exact ⟨stringField_safe hs hfit fieldOk_lt _, stringField_safe hs hfit fieldOk_lt _,
    stringField_safe hs hfit fieldOk_lt _⟩

theorem parseSystem_safe (major minor : UInt8) (out : SmbiosSystemInfo) :
    (parseSystem s hlen stop major minor out).Always (SmbiosSafe lo stop) m := by
  simp only [parseSystem, Probe.always_bind]
  refine ⟨stringField_safe hs hfit fieldOk_lt _, stringField_safe hs hfit fieldOk_lt _,
    stringField_safe hs hfit fieldOk_lt _, stringField_safe hs hfit fieldOk_lt _,
    Probe.always_ite (fun h => ?_) fun _ => Probe.always_pure _⟩
  have hlong : 0x18 ≤ hlen.toNat := UInt8.le_iff_toNat_le.mp h
  simp only [Probe.always_bind, Probe.always_note, Probe.always_pure, and_true]
  exact ⟨always_readBytes fun i h1 h2 => ⟨by omega, by omega⟩, Or.inr rfl, Nat.le_refl _⟩

theorem parseBaseboard_safe (out : SmbiosBaseboardInfo) :
    (parseBaseboard s hlen stop out).Always (SmbiosSafe lo stop) m := by
  simp only [parseBaseboard, Probe.always_bind, Probe.always_pure, and_true]
  exact ⟨stringField_safe hs hfit fieldOk_lt _, stringField_safe hs hfit fieldOk_lt _,
    stringField_safe hs hfit fieldOk_lt _, stringField_safe hs hfit fieldOk_lt _⟩

theorem parseChassis_safe (out : SmbiosChassisInfo) :
    (parseChassis s hlen stop out).Always (SmbiosSafe lo stop) m := by
  simp only [parseChassis, Probe.always_bind, Probe.always_pure, and_true]
  exact ⟨stringField_safe hs hfit fieldOk_lt _, byteField_safe hs hfit fieldOk_lt,
    stringField_safe hs hfit fieldOk_lt _⟩

theorem memoryDeviceSize_safe (sizeWord : UInt16) :
    (memoryDeviceSize s hlen sizeWord).Always (SmbiosSafe lo stop) m := by
  refine Probe.always_ite (fun _ => Probe.always_pure _) fun _ => ?_
  refine Probe.always_ite (fun _ => Probe.always_pure _) fun _ => ?_
  refine Probe.always_ite (fun h => ?_) fun _ => Probe.always_pure _
  have hlong : 0x20 ≤ hlen.toNat := UInt8.le_iff_toNat_le.mp h.2
  simp only [Probe.always_bind, Probe.always_pure, and_true]
  exact always_read32 fun i h1 h2 => ⟨by omega, by omega⟩

theorem parseMemoryDevice_safe (data : SmbiosData) :
    (parseMemoryDevice s hlen stop data).Always (SmbiosSafe lo stop) m := by
  refine Probe.always_ite (fun _ => Probe.always_pure _) fun hroom => ?_
  have hlong : ∀ {k : UInt8}, decide (hlen ≥ k) = true → k.toNat ≤ hlen.toNat :=
    fun h => UInt8.le_iff_toNat_le.mp (of_decide_eq_true h)
  simp only [Probe.always_bind, Probe.always_note, Probe.always_pure, and_true]
  exact ⟨Nat.lt_of_not_ge hroom, wordField_safe hs hfit fieldOk_lt,
    memoryDeviceSize_safe hs hfit _, byteField_safe hs hfit fieldOk_lt,
    wordField_safe hs hfit hlong, wordField_safe hs hfit hlong,
    stringField_safe hs hfit fieldOk_lt _, stringField_safe hs hfit hlong _,
    stringField_safe hs hfit hlong _, stringField_safe hs hfit hlong _⟩

theorem parseStructure_safe (type : UInt8) (out : SmbiosData) :
    (parseStructure type s hlen stop out).Always (SmbiosSafe lo stop) m := by
  unfold parseStructure
  refine Probe.always_ite (fun _ => ?_) fun _ => ?_
  · simpa using parseBios_safe hs hfit _
  refine Probe.always_ite (fun _ => ?_) fun _ => ?_
  · simpa using parseSystem_safe hs hfit _ _ _
  refine Probe.always_ite (fun _ => ?_) fun _ => ?_
  · simpa using parseBaseboard_safe hs hfit _
  refine Probe.always_ite (fun _ => ?_) fun _ => ?_
  · simpa using parseChassis_safe hs hfit _
  exact Probe.always_ite (fun _ => parseMemoryDevice_safe hs hfit _)
    fun _ => Probe.always_pure _

end Structures

/-- What the walk does: it also enters structures. -/
def SmbiosWalkSafe (lo stop : Nat) (a : Access Nat SmbiosEvent) : Prop :=
  SmbiosSafe lo stop a ∨ ∃ v, a = .note (.reach v)

theorem Probe.Always.walk {α : Type} {m : Mem} {lo stop : Nat} {p : SmbiosProbe α}
    (h : p.Always (SmbiosSafe lo stop) m) : p.Always (SmbiosWalkSafe lo stop) m :=
  h.mono fun _ ha => Or.inl ha

theorem smbiosWalk_safe {m : Mem} {lo stop cur : Nat} (hcur : lo ≤ cur) (out : SmbiosData) :
    (smbiosWalk stop cur out).Always (SmbiosWalkSafe lo stop) m := by
  fun_induction smbiosWalk stop cur out with
  | case1 cur out hlt ih =>
    simp only [Probe.always_bind, Probe.always_ask, Probe.always_note]
    refine ⟨Or.inl ⟨hcur, by omega⟩, Or.inl ⟨by omega, by omega⟩, Or.inr ⟨_, rfl⟩, ?_⟩
    refine Probe.always_ite (fun _ => Probe.always_pure _) fun hhdr => ?_
    refine Probe.always_ite (fun _ => Probe.always_pure _) fun _ => ?_
    obtain ⟨hfour, hfit⟩ := not_or.mp hhdr
    have hlen : 4 ≤ (m (cur + 1)).toNat := UInt8.le_iff_toNat_le.mp (UInt8.not_lt.mp hfour)
    simp only [Probe.val_ask] at hfit ⊢
    simp only [Probe.always_bind]
    refine ⟨(parseStructure_safe hcur (Nat.le_of_not_gt hfit) _ _).walk,
      (skipStringSet_safe (by omega)).walk, ?_⟩
    split
    · exact Probe.always_pure _
    · refine Probe.always_ite (fun _ => Probe.always_pure _) fun hnext => ?_
      exact ih (m (cur + 1)) _ _ hnext (by omega)
  | case2 cur out hlt => exact Probe.always_pure _

def smbiosLength (raw : List UInt8) : UInt32 :=
  UInt32.ofNat (leNat (segment (memOf raw) 4 4))

theorem smbiosTableEnd_eq (rawSize : Nat) (length : UInt32) :
    smbiosTableEnd rawSize length = min (rawSmbiosHeaderSize + length.toNat) rawSize := by
  unfold smbiosTableEnd
  split <;> omega

theorem smbiosCollectRaw_safe (raw : List UInt8) :
    (smbiosCollectRaw raw.length).Always
      (SmbiosWalkSafe 0 (smbiosTableEnd raw.length (smbiosLength raw))) (memOf raw) := by
  refine Probe.always_ite (fun _ => Probe.always_pure _) fun hsize => ?_
  have hend := smbiosTableEnd_eq raw.length (smbiosLength raw)
  have hhdr : rawSmbiosHeaderSize = 8 := rfl
  simp only [Probe.always_bind, Probe.always_ask, Probe.always_pure, and_true]
  refine ⟨Or.inl ⟨by omega, by omega⟩, Or.inl ⟨by omega, by omega⟩,
    always_read32 fun i h1 h2 => Or.inl ⟨by omega, by omega⟩, ?_⟩
  rw [read32_val]
  exact smbiosWalk_safe (Nat.zero_le _) _

/-- No byte outside the clamped table or the buffer is read, and no array is overrun. -/
theorem smbiosCollect_inBounds (raw : List UInt8) :
    (∀ i, .read i ∈ (smbiosCollectRaw raw.length).log (memOf raw) →
      i < raw.length ∧ i < min (8 + (smbiosLength raw).toNat) raw.length) ∧
    (∀ slot, .note (.deviceWrite slot) ∈ (smbiosCollectRaw raw.length).log (memOf raw) →
      slot < smbiosMaxMemoryDevices) ∧
    (∀ size first count,
      .note (.charWrite size first count) ∈ (smbiosCollectRaw raw.length).log (memOf raw) →
      (size = smbiosStrMax ∨ size = 37) ∧ first + count ≤ size) := by
  have hsafe : ∀ a ∈ (smbiosCollectRaw raw.length).log (memOf raw), (∀ v, a ≠ .note (.reach v)) →
      SmbiosSafe 0 (smbiosTableEnd raw.length (smbiosLength raw)) a := by
    intro a ha hne
    rcases smbiosCollectRaw_safe raw a ha with h | ⟨v, hv⟩
    · exact h
    · exact absurd hv (hne v)
  refine ⟨fun i hi => ?_, fun slot hs => hsafe _ hs (by simp),
    fun size first count hc => hsafe _ hc (by simp)⟩
  have hread := (hsafe _ hi (by simp)).2
  rw [smbiosTableEnd_eq] at hread
  exact ⟨Nat.lt_of_lt_of_le hread (Nat.min_le_right _ _), hread⟩

end HwMon
