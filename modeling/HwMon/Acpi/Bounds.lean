import HwMon.Acpi.Parser

/-!
# Memory safety of the ACPI parser

The checksum and the parsers for single tables stay below the effective length,
everything else stays inside the header.
-/

namespace HwMon
set_option autoImplicit false

/-- Reads lie below `n`, writes lie in their arrays. -/
def AcpiSafe (n : Nat) : Access Nat AcpiEvent → Prop
  | .read i => i < n
  | .note (.discoveredWrite slot _) => slot < acpiMaxDiscoveredTables
  | .note (.processorWrite slot) => slot < acpiMaxProcessors
  | .note (.entryWrite slot) => slot < acpiMaxMcfgEntries
  | .note (.fill _) => True

theorem AcpiSafe.mono {n k : Nat} (h : n ≤ k) {a : Access Nat AcpiEvent} (ha : AcpiSafe n a) :
    AcpiSafe k a := by
  cases a with
  | read i => exact Nat.lt_of_lt_of_le ha h
  | note w =>
    cases w with
    | discoveredWrite slot summary => exact ha
    | processorWrite slot => exact ha
    | entryWrite slot => exact ha
    | fill record => exact trivial

theorem ReadsBelow.acpiSafe {n : Nat} {a : Access Nat AcpiEvent} (ha : ReadsBelow n a) :
    AcpiSafe n a := by
  cases a with
  | read i => exact ha
  | note w => exact False.elim ha

section Functions
variable {m : Mem} {n : Nat}

theorem sumBytes_reads {p k : Nat} (h : p + k ≤ n) (sum : UInt8) :
    (sumBytes p k sum).Always (ReadsBelow n) m := by
  induction k generalizing p sum with
  | zero => exact Probe.always_pure _
  | succ k ih =>
    simp only [sumBytes, Probe.always_bind, Probe.always_ask]
    have hp : p < n := by omega
    exact ⟨hp, ih (by omega) _⟩

theorem checksumOk_reads {len : Nat} (h : len ≤ n) :
    (checksumOk len).Always (ReadsBelow n) m := by
  simp only [checksumOk, Probe.always_bind, Probe.always_pure, and_true]
  exact sumBytes_reads (by omega) 0

theorem fillSummary_reads (h : acpiRawHeaderSize ≤ n) (actualLen : Nat) (valid : Bool) :
    (fillSummary actualLen valid).Always (ReadsBelow n) m := by
  have hhdr : acpiRawHeaderSize = 36 := rfl
  have hrev : 8 < n := by omega
  simp only [fillSummary, Probe.always_bind, Probe.always_ask, Probe.always_pure, and_true]
  exact ⟨always_readBytes_below (by omega), always_readBytes_below (by omega),
    always_readBytes_below (by omega), hrev⟩

theorem sigIs_reads (h : acpiRawHeaderSize ≤ n) (sig4 : List UInt8) :
    (sigIs sig4).Always (ReadsBelow n) m := by
  have hhdr : acpiRawHeaderSize = 36 := rfl
  simp only [sigIs, Probe.always_bind, Probe.always_pure, and_true]
  exact always_readBytes_below (by omega)

theorem read32_safe {p : Nat} (h : p + 4 ≤ n) :
    (read32 p : AcpiProbe _).Always (AcpiSafe n) m :=
  always_read32 fun _ _ hi => Nat.lt_of_lt_of_le hi h

end Functions

section Madt
variable {m : Mem} {stop : Nat}

theorem localApicEntry_safe {p : Nat} (h : p + 8 ≤ stop)
    (out : Capped AcpiProcessorEntry acpiMaxProcessors) :
    (localApicEntry p out).Always (AcpiSafe stop) m := by
  refine Probe.always_ite (fun hroom => ?_) fun _ => Probe.always_pure _
  have hid : p + 2 < stop := by omega
  have hapic : p + 3 < stop := by omega
  simp only [Probe.always_bind, Probe.always_note, Probe.always_ask, Probe.always_pure, and_true]
  exact ⟨hroom, hid, hapic, read32_safe (by omega)⟩

theorem localX2apicEntry_safe {p : Nat} (h : p + 16 ≤ stop)
    (out : Capped AcpiProcessorEntry acpiMaxProcessors) :
    (localX2apicEntry p out).Always (AcpiSafe stop) m := by
  refine Probe.always_ite (fun hroom => ?_) fun _ => Probe.always_pure _
  simp only [Probe.always_bind, Probe.always_note, Probe.always_pure, and_true]
  exact ⟨hroom, read32_safe (by omega), read32_safe (by omega)⟩

theorem madtEntry_safe {p : Nat} {entryLen : UInt8} (h : p + entryLen.toNat ≤ stop)
    (entryType : UInt8) (out : Capped AcpiProcessorEntry acpiMaxProcessors) :
    (madtEntry entryType p entryLen out).Always (AcpiSafe stop) m := by
  refine Probe.always_ite (fun hapic => ?_) fun _ => ?_
  · have hlen : 8 ≤ entryLen.toNat := UInt8.le_iff_toNat_le.mp hapic.2
    exact localApicEntry_safe (by omega) out
  refine Probe.always_ite (fun hx2 => ?_) fun _ => Probe.always_pure _
  have hlen : 16 ≤ entryLen.toNat := UInt8.le_iff_toNat_le.mp hx2.2
  exact localX2apicEntry_safe (by omega) out

theorem madtLoop_safe (p : Nat) (out : Capped AcpiProcessorEntry acpiMaxProcessors) :
    (madtLoop stop p out).Always (AcpiSafe stop) m := by
  fun_induction madtLoop stop p out with
  | case1 p out hlt ih =>
    have htype : p < stop := by omega
    simp only [Probe.always_bind, Probe.always_ask]
    refine ⟨htype, hlt, Probe.always_ite (fun _ => Probe.always_pure _) fun hentry => ?_⟩
    simp only [Probe.always_bind]
    exact ⟨madtEntry_safe (Nat.le_of_not_lt fun h => hentry (Or.inr h)) _ out, ih _ hentry _⟩
  | case2 p out hlt => exact Probe.always_pure _

theorem madtLoop_le {p : Nat} (h : p ≤ stop) (out : Capped AcpiProcessorEntry acpiMaxProcessors) :
    ((madtLoop stop p out).val m).1 ≤ stop := by
  fun_induction madtLoop stop p out with
  | case1 p out hlt ih =>
    simp only [↓Probe.val_bind, ↓Probe.val_ite, Probe.val_ask, Probe.val_pure]
    split
    · exact h
    · rename_i hentry
      exact ih _ hentry _ (Nat.le_of_not_lt fun h => hentry (Or.inr h))
  | case2 p out hlt => exact h

end Madt

section Mcfg
variable {m : Mem} {stop : Nat}

theorem mcfgLoop_safe (p : Nat) (out : Capped AcpiMcfgEntry acpiMaxMcfgEntries) :
    (mcfgLoop stop p out).Always (AcpiSafe stop) m := by
  fun_induction mcfgLoop stop p out with
  | case1 p out hlt ih =>
    obtain ⟨hfit, hroom⟩ := hlt
    have hstart : p + 10 < stop := by omega
    have hend : p + 11 < stop := by omega
    simp only [Probe.always_bind, Probe.always_note, Probe.always_ask]
    refine ⟨hroom, always_read64 fun i _ hi => ?_, always_read16 fun i _ hi => ?_, hstart, hend,
      ih _ _ _ _⟩
    · exact Nat.lt_of_lt_of_le hi (by omega)
    · exact Nat.lt_of_lt_of_le hi (by omega)
  | case2 p out hlt => exact Probe.always_pure _

theorem mcfgLoop_le {p : Nat} (h : p ≤ stop) (out : Capped AcpiMcfgEntry acpiMaxMcfgEntries) :
    ((mcfgLoop stop p out).val m).1 ≤ stop := by
  fun_induction mcfgLoop stop p out with
  | case1 p out hlt ih =>
    simp only [↓Probe.val_bind, Probe.val_ask]
    exact ih _ _ _ _ hlt.1
  | case2 p out hlt => exact h

end Mcfg

section Tables
variable {m : Mem} (len : Nat)

theorem parseFadt_safe : (parseFadt len).Always (AcpiSafe len) m := by
  refine Probe.always_ite (fun _ => Probe.always_pure _) fun hlen => ?_
  have hprofile : 45 < len := by omega
  simp only [Probe.always_bind, Probe.always_ask, Probe.always_pure, and_true]
  exact ⟨hprofile, always_read16 fun i _ hi => Nat.lt_of_lt_of_le hi (by omega)⟩

theorem parseMadt_safe : (parseMadt len).Always (AcpiSafe len) m := by
  refine Probe.always_ite (fun _ => Probe.always_pure _) fun hlen => ?_
  simp only [Probe.always_bind, Probe.always_pure, and_true]
  exact ⟨read32_safe (by omega), madtLoop_safe _ _⟩

theorem parseMcfg_safe : (parseMcfg len).Always (AcpiSafe len) m := by
  refine Probe.always_ite (fun _ => Probe.always_pure _) fun hlen => ?_
  simp only [Probe.always_bind, Probe.always_pure, and_true]
  exact mcfgLoop_safe _ _

theorem parseHpet_safe : (parseHpet len).Always (AcpiSafe len) m := by
  refine Probe.always_ite (fun _ => Probe.always_pure _) fun hlen => ?_
  have hnumber : 52 < len := by omega
  simp only [Probe.always_bind, Probe.always_ask, Probe.always_pure, and_true]
  exact ⟨always_read64 fun i _ hi => Nat.lt_of_lt_of_le hi (by omega), hnumber⟩

variable {len} {n : Nat}

theorem fillRecord_safe (hlen : len ≤ n) (hn : acpiRawHeaderSize ≤ n)
    (summary : AcpiTableSummary) (out : AcpiData) :
    (fillRecord len summary out).Always (AcpiSafe n) m := by
  have hsig : ∀ sig4, (sigIs sig4).Always (AcpiSafe n) m :=
    fun sig4 => (sigIs_reads hn sig4).mono fun _ => ReadsBelow.acpiSafe
  simp only [fillRecord, Probe.always_bind]
  refine ⟨hsig _, Probe.always_ite (fun _ => ?_) fun _ => ?_⟩
  · simp only [Probe.always_bind, Probe.always_note, Probe.always_pure, and_true]
    exact ⟨trivial, (parseFadt_safe len).mono fun _ => AcpiSafe.mono hlen⟩
  simp only [Probe.always_bind]
  refine ⟨hsig _, Probe.always_ite (fun _ => ?_) fun _ => ?_⟩
  · simp only [Probe.always_bind, Probe.always_note, Probe.always_pure, and_true]
    exact ⟨trivial, (parseMadt_safe len).mono fun _ => AcpiSafe.mono hlen⟩
  simp only [Probe.always_bind]
  refine ⟨hsig _, Probe.always_ite (fun _ => ?_) fun _ => ?_⟩
  · simp only [Probe.always_bind, Probe.always_note, Probe.always_pure, and_true]
    exact ⟨trivial, (parseMcfg_safe len).mono fun _ => AcpiSafe.mono hlen⟩
  simp only [Probe.always_bind]
  refine ⟨hsig _, Probe.always_ite (fun _ => ?_) fun _ => Probe.always_pure _⟩
  simp only [Probe.always_bind, Probe.always_note, Probe.always_pure, and_true]
  exact ⟨trivial, (parseHpet_safe len).mono fun _ => AcpiSafe.mono hlen⟩

theorem acpiEffectiveLen_le (rawSize : Nat) (length : UInt32) :
    acpiEffectiveLen rawSize length ≤ rawSize := by
  unfold acpiEffectiveLen
  split
  · rename_i h
    exact h.2
  · exact Nat.le_refl _

theorem collectTable_safe (out : AcpiData) (hroom : out.discoveredCount < acpiMaxDiscoveredTables) :
    (collectTable n out).Always (AcpiSafe n) m := by
  refine Probe.always_ite (fun _ => Probe.always_pure _) fun hhdr => ?_
  have hn := Nat.le_of_not_lt hhdr
  have hheader : acpiRawHeaderSize = 36 := rfl
  simp only [Probe.always_bind, Probe.always_note]
  refine ⟨read32_safe (by omega),
    (checksumOk_reads (acpiEffectiveLen_le _ _)).mono fun _ => ReadsBelow.acpiSafe,
    (fillSummary_reads hn _ _).mono fun _ => ReadsBelow.acpiSafe, hroom,
    Probe.always_ite (fun _ => ?_) fun _ => Probe.always_pure _⟩
  exact fillRecord_safe (acpiEffectiveLen_le _ _) hn _ _

end Tables

/-- The rounds of the loop of `acpi_collect` for tables that were fetched: the
result before the round, and the table. -/
def acpiSteps (out : AcpiData) : List (Option (List UInt8)) → List (AcpiData × List UInt8)
  | [] => []
  | t :: ts =>
    if out.discoveredCount < acpiMaxDiscoveredTables then
      (t.map fun raw => (out, raw)).toList ++ acpiSteps (collectFetched out t) ts
    else []

theorem acpiSteps_room {out : AcpiData} {ts : List (Option (List UInt8))}
    {step : AcpiData × List UInt8} (h : step ∈ acpiSteps out ts) :
    step.1.discoveredCount < acpiMaxDiscoveredTables := by
  induction ts generalizing out with
  | nil => exact absurd h List.not_mem_nil
  | cons t ts ih =>
    rw [acpiSteps] at h
    split at h
    · rename_i hroom
      rcases List.mem_append.mp h with h | h
      · cases t with
        | none => exact absurd h List.not_mem_nil
        | some raw =>
          obtain rfl := List.mem_singleton.mp h
          exact hroom
      · exact ih h
    · exact absurd h List.not_mem_nil

/-- No round leaves its buffer or overruns an array, no parser of a single table
leaves the effective length, and no cursor passes the end. -/
theorem acpiCollect_inBounds (ts : List (Option (List UInt8))) :
    (∀ step ∈ acpiSteps {} ts,
      (collectTable step.2.length step.1).Always (AcpiSafe step.2.length) (memOf step.2)) ∧
    (∀ (m : Mem) (len : Nat),
      (parseFadt len).Always (AcpiSafe len) m ∧ (parseMadt len).Always (AcpiSafe len) m ∧
      (parseMcfg len).Always (AcpiSafe len) m ∧ (parseHpet len).Always (AcpiSafe len) m) ∧
    (∀ (m : Mem) (stop p : Nat), p ≤ stop →
      (∀ out, ((madtLoop stop p out).val m).1 ≤ stop) ∧
      ∀ out, ((mcfgLoop stop p out).val m).1 ≤ stop) := by
  refine ⟨fun step hstep => collectTable_safe step.1 (acpiSteps_room hstep), fun m len => ?_,
    fun m stop p hp => ⟨madtLoop_le hp, mcfgLoop_le hp⟩⟩
  exact ⟨parseFadt_safe len, parseMadt_safe len, parseMcfg_safe len, parseHpet_safe len⟩

end HwMon
