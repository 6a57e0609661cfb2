import HwMon.Memory.MemoryInfo
import HwMon.Smbios.Bounds

/-!
# Memory safety of the memory map

The walk of `memory_info.c` stays inside the clamped table, as that of `smbios.c`
does, and writes no region behind the last slot.
-/

namespace HwMon
set_option autoImplicit false

/-- Reads lie below `n`, writes lie in the array of regions. -/
def MemorySafe (n : Nat) : Access Nat MemoryEvent → Prop
  | .read i => i < n
  | .note (.reach _) => True
  | .note (.regionWrite slot) => slot < memoryMaxRegions

section Walk
variable {m : Mem} {stop : Nat}

theorem mappedRange_safe {cur : Nat} {hlen : UInt8} (h15 : 15 ≤ hlen.toNat)
    (hfit : cur + hlen.toNat ≤ stop) : (mappedRange cur hlen).Always (MemorySafe stop) m := by
  simp only [mappedRange, Probe.always_bind]
  refine ⟨always_read32 fun i _ hi => Nat.lt_of_lt_of_le hi (by omega),
    always_read32 fun i _ hi => Nat.lt_of_lt_of_le hi (by omega),
    Probe.always_ite (fun hext => ?_) fun _ => ?_⟩
  · have h31 : 31 ≤ hlen.toNat := UInt8.le_iff_toNat_le.mp hext.2
    simp only [Probe.always_bind, Probe.always_pure, and_true]
    exact ⟨always_read64 fun i _ hi => Nat.lt_of_lt_of_le hi (by omega),
      always_read64 fun i _ hi => Nat.lt_of_lt_of_le hi (by omega)⟩
  · exact Probe.always_ite (fun _ => Probe.always_pure _) fun _ => Probe.always_pure _

theorem storeRegion_safe {cur : Nat} {hlen : UInt8} (hfit : cur + hlen.toNat ≤ stop)
    (type : UInt8) {out : Capped MemoryRegion memoryMaxRegions}
    (hroom : out.count < memoryMaxRegions) :
    (storeRegion type cur hlen out).Always (MemorySafe stop) m := by
  refine Probe.always_ite (fun htype => ?_) fun _ => Probe.always_pure _
  have h15 : 15 ≤ hlen.toNat := UInt8.le_iff_toNat_le.mp htype.2
  rw [Probe.always_bind]
  refine ⟨mappedRange_safe h15 hfit, Probe.always_ite (fun _ => ?_) fun _ => Probe.always_pure _⟩
  simp only [Probe.always_bind, Probe.always_note, Probe.always_pure, and_true]
  exact ⟨hroom, always_read16 fun i _ hi => Nat.lt_of_lt_of_le hi (by omega)⟩

theorem memoryWalk_safe (cur : Nat) (out : Capped MemoryRegion memoryMaxRegions) :
    (memoryWalk stop cur out).Always (MemorySafe stop) m := by
  fun_induction memoryWalk stop cur out with
  | case1 cur out hgo ih =>
    obtain ⟨hlt, hroom⟩ := hgo
    have htype : cur < stop := by omega
    have hlen : cur + 1 < stop := by omega
    simp only [Probe.always_bind, Probe.always_ask, Probe.always_note]
    refine ⟨htype, hlen, trivial, Probe.always_ite (fun _ => Probe.always_pure _) fun hbad => ?_⟩
    have hfit : cur + (m (cur + 1)).toNat ≤ stop := Nat.le_of_not_gt fun hgt => hbad (Or.inr hgt)
    refine Probe.always_ite (fun _ => Probe.always_pure _) fun _ => ?_
    simp only [Probe.always_bind]
    refine ⟨storeRegion_safe hfit _ hroom, always_skipStringSet fun i _ hi => hi, ?_⟩
    split
    · exact Probe.always_pure _
    · exact Probe.always_ite (fun _ => Probe.always_pure _) fun hnext => ih (m (cur + 1)) _ _ hnext
  | case2 cur out hgo => exact Probe.always_pure _

end Walk

theorem collectRegionsRaw_safe (raw : List UInt8) :
    (collectRegionsRaw raw.length).Always (MemorySafe raw.length) (memOf raw) := by
  refine Probe.always_ite (fun _ => Probe.always_pure _) fun hsize => ?_
  have hhdr : rawSmbiosHeaderSize = 8 := rfl
  simp only [Probe.always_bind]
  refine ⟨always_read32 fun i _ hi => Nat.lt_of_lt_of_le hi (by omega),
    (memoryWalk_safe _ _).mono fun a ha => ?_⟩
  have hend := smbiosTableEnd_eq raw.length ((read32 4 : MemoryProbe _).val (memOf raw))
  cases a with
  | read i =>
    have hi : i < _ := ha
    exact Nat.lt_of_lt_of_le hi (hend ▸ Nat.min_le_right _ _)
  | note w =>
    cases w with
    | reach v => exact trivial
    | regionWrite slot => exact ha

end HwMon
