import HwMon.Firmware.Platform
import HwMon.Acpi.Bounds
import HwMon.Memory.Bounds

/-!
# The collectors with their buffers

`smbios_collect`, `acpi_collect` and `memory_info_collect` as they fetch a table,
read it where it lies and free it. Whatever the system answers, no run ends with
a fault, every block is freed, and the result is that of the parsers on what the
system delivered.
-/

namespace HwMon
set_option autoImplicit false

/-- The part that the three collectors share: a fetched table is read where it lies
and freed, a table that is too short is freed at once. -/
def readFetched {ω α : Type} (minimum : Nat) (nothing : α) (read : Nat → ByteProbe ω α) :
    Option (Nat × Nat) → FirmwareM α
  | none => pure nothing
  | some (raw, rawSize) =>
    if rawSize < minimum then do
      free raw
      pure nothing
    else do
      let a ← consult raw (read rawSize)
      free raw
      pure a

def smbiosCollectOnHeap : FirmwareM (Bool × SmbiosData) := do
  let fetched ← platformGetSmbiosTable
  readFetched rawSmbiosHeaderSize (false, {}) smbiosCollectRaw fetched

/-- The `for` loop of `acpi_collect` in its last `rounds` rounds. -/
def acpiLoopOnHeap (sigs : Nat) : Nat → Nat → AcpiData → FirmwareM AcpiData
  | 0, _, out => pure out
  | rounds + 1, i, out =>
    if out.discoveredCount < acpiMaxDiscoveredTables then do
      let signature ← consult sigs (read32 (ω := AcpiEvent) (4 * i))
      let fetched ← platformGetAcpiTable signature
      let out ← readFetched acpiRawHeaderSize out (collectTable · out) fetched
      acpiLoopOnHeap sigs rounds (i + 1) out
    else pure out

def acpiCollectOnHeap : FirmwareM (Bool × AcpiData) := do
  let enumerated ← platformEnumAcpiSignatures
  match enumerated with
  | none => pure (false, {})
  | some (sigs, count) => do
    let out ← acpiLoopOnHeap sigs count 0 {}
    free sigs
    pure (true, out)

def collectRegionsOnHeap : FirmwareM (Capped MemoryRegion memoryMaxRegions) := do
  let fetched ← platformGetSmbiosTable
  readFetched rawSmbiosHeaderSize .empty collectRegionsRaw fetched

def memoryInfoCollectOnHeap : FirmwareM (Bool × MemoryInfo) := do
  let status ← outside HostOs.memoryStatus
  let out : MemoryInfo :=
    match status with
    | none => {}
    | some ms =>
      { available := true, totalPhysicalBytes := ms.totalPhys,
        availablePhysicalBytes := ms.availPhys, memoryLoadPercent := ms.memoryLoad }
  let regions ← collectRegionsOnHeap
  let out := { out with regions }
  pure (out.available || decide (out.regionCount > 0), out)

/-- What a parser gets to see of a table: its content at some call between the two
heaps, or nothing for one of the reasons. -/
def Delivered (os : HostOs) (content : FirmwareContent) (h t : Heap) :
    Option (List UInt8) → Prop
  | none => Refused os content h t
  | some raw => raw ≠ [] ∧ ∃ n, Store.Between h t n ∧ raw = content os n

theorem Delivered.widen {os : HostOs} {content : FirmwareContent} {h h' t t' : Heap}
    {table : Option (List UInt8)} (hd : Delivered os content h' t table)
    (hh : h.calls ≤ h'.calls) (ht : t.calls ≤ t'.calls) : Delivered os content h t' table := by
  cases table with
  | none => exact Refused.widen hd hh ht
  | some raw =>
    obtain ⟨hne, n, hn, hraw⟩ := hd
    exact ⟨hne, n, hn.widen hh ht, hraw⟩

section Reading
variable {os : HostOs} {α ω : Type}

theorem returns_readFetched {minimum : Nat} {nothing : α} {read : Nat → ByteProbe ω α}
    (hreads : ∀ raw, StaysIn raw (read raw.length))
    (hshort : ∀ raw : List UInt8, raw.length < minimum →
      (read raw.length).val (memOf raw) = nothing)
    (content : FirmwareContent) (h : Heap) :
    (fetchTwice content >>= readFetched minimum nothing read).Returns os h fun a t =>
      h.Keeps t ∧ ∃ table, Delivered os content h t table ∧
        a = table.elim nothing fun raw => (read raw.length).val (memOf raw) := by
  refine (returns_fetchTwice content h).bind fun fetched t ht => ?_
  obtain ⟨hcalls, ht⟩ := ht
  cases fetched with
  | none =>
    obtain ⟨htb, hrefused⟩ := ht
    exact Prog.returns_pure ⟨⟨htb, hcalls⟩, none, hrefused, rfl⟩
  | some r =>
    obtain ⟨buf, written⟩ := r
    obtain ⟨n, b, hn, hwith, hbytes, rfl, hpos⟩ := ht
    have hne := List.ne_nil_of_length_pos hpos
    refine Prog.returns_ite (fun hsmall => ?_) fun _ => ?_
    · refine (returns_giveBack hwith).bind fun _ u hu => ?_
      obtain ⟨hub, huc⟩ := hu
      refine Prog.returns_pure ⟨⟨hub, by omega⟩, some b.bytes,
        ⟨hne, n, hn.widen (Nat.le_refl _) (by omega), hbytes⟩, ?_⟩
      exact (hshort b.bytes hsmall).symm
    · refine (returns_consult hwith.self (hreads b.bytes)).bind fun a u hu => ?_
      obtain ⟨rfl, hub, huc⟩ := hu
      refine (returns_giveBack (hwith.keeps hub)).bind fun _ v hv => ?_
      obtain ⟨hvb, hvc⟩ := hv
      exact Prog.returns_pure ⟨⟨hvb, by omega⟩, some b.bytes,
        ⟨hne, n, hn.widen (Nat.le_refl _) (by omega), hbytes⟩, rfl⟩

end Reading

section Collectors
variable {os : HostOs}

theorem smbiosCollectRaw_staysIn (raw : List UInt8) :
    StaysIn raw (smbiosCollectRaw raw.length) := by
  refine (smbiosCollectRaw_safe raw).mono fun a ha => ?_
  cases a with
  | note w => rfl
  | read i =>
    rcases ha with ⟨_, hi⟩ | ⟨v, hv⟩
    · rw [smbiosTableEnd_eq] at hi
      exact decide_eq_true (Nat.lt_of_lt_of_le hi (Nat.min_le_right _ _))
    · cases hv

theorem collectTable_staysIn {out : AcpiData} (hroom : out.discoveredCount < acpiMaxDiscoveredTables)
    (raw : List UInt8) : StaysIn raw (collectTable raw.length out) := by
  refine (collectTable_safe out hroom).mono fun a ha => ?_
  cases a with
  | read i => exact decide_eq_true ha
  | note w => rfl

theorem collectRegionsRaw_staysIn (raw : List UInt8) :
    StaysIn raw (collectRegionsRaw raw.length) := by
  refine (collectRegionsRaw_safe raw).mono fun a ha => ?_
  cases a with
  | read i => exact decide_eq_true ha
  | note w => rfl

theorem returns_smbiosCollectOnHeap (h : Heap) :
    smbiosCollectOnHeap.Returns os h fun r t =>
      h.Keeps t ∧ ∃ table, Delivered os smbiosContent h t table ∧ r = smbiosCollect table := by
  refine (returns_readFetched smbiosCollectRaw_staysIn (fun raw hshort => ?_) _ h).mono
    fun r t ht => ?_
  · rw [smbiosCollectRaw, if_pos hshort, Probe.val_pure]
  · obtain ⟨hkeeps, table, hdelivered, rfl⟩ := ht
    refine ⟨hkeeps, table, hdelivered, ?_⟩
    cases table <;> rfl

theorem returns_collectRegionsOnHeap (h : Heap) :
    collectRegionsOnHeap.Returns os h fun r t =>
      h.Keeps t ∧ ∃ table, Delivered os smbiosContent h t table ∧
        r = collectRegionsFromSmbios table := by
  refine (returns_readFetched collectRegionsRaw_staysIn (fun raw hshort => ?_) _ h).mono
    fun r t ht => ?_
  · rw [collectRegionsRaw, if_pos hshort, Probe.val_pure]
  · obtain ⟨hkeeps, table, hdelivered, rfl⟩ := ht
    refine ⟨hkeeps, table, hdelivered, ?_⟩
    cases table <;> rfl

theorem returns_memoryInfoCollectOnHeap (h : Heap) :
    memoryInfoCollectOnHeap.Returns os h fun r t =>
      h.Keeps t ∧ ∃ table, Delivered os smbiosContent h t table ∧
        r = memoryInfoCollect (os.memoryStatus h.calls) table := by
  refine (returns_outside _).bind fun status t ht => ?_
  obtain ⟨rfl, htb, htc⟩ := ht
  refine (returns_collectRegionsOnHeap t).bind fun regions u hu => ?_
  obtain ⟨⟨hub, huc⟩, table, hdelivered, rfl⟩ := hu
  exact Prog.returns_pure ⟨⟨hub.trans htb, by omega⟩, table,
    hdelivered.widen (by omega) (Nat.le_refl _), rfl⟩

end Collectors

section Acpi
variable {os : HostOs}

/-- The `i`-th of the signatures in a block. -/
def signatureAt (sigs : List UInt8) (i : Nat) : UInt32 := fieldDword sigs (4 * i)

/-- The tables that a loop over some signatures was given, from the `i`-th on. -/
def DeliveredFrom (os : HostOs) (sigs : List UInt8) (i : Nat) (h t : Heap)
    (ts : List (Option (List UInt8))) : Prop :=
  ∀ j table, ts[j]? = some table →
    Delivered os (acpiContent (signatureAt sigs (i + j))) h t table

theorem DeliveredFrom.nil {sigs : List UInt8} {i : Nat} {h t : Heap} :
    DeliveredFrom os sigs i h t [] :=
  fun _ _ hj => nomatch hj

theorem DeliveredFrom.cons {sigs : List UInt8} {i : Nat} {h t u : Heap}
    {table : Option (List UInt8)} {ts : List (Option (List UInt8))}
    (hhead : Delivered os (acpiContent (signatureAt sigs i)) h t table)
    (htail : DeliveredFrom os sigs (i + 1) t u ts) (hht : h.calls ≤ t.calls)
    (htu : t.calls ≤ u.calls) : DeliveredFrom os sigs i h u (table :: ts) := by
  intro j r hr
  cases j with
  | zero =>
    cases hr
    exact hhead.widen (Nat.le_refl _) htu
  | succ j =>
    have hnext := htail j r hr
    rw [Nat.add_right_comm, Nat.add_assoc] at hnext
    exact hnext.widen hht (Nat.le_refl _)

theorem read32_signatureAt {sigs : List UInt8} {i : Nat} (h : 4 * i + 4 ≤ sigs.length) :
    (read32 (4 * i) : AcpiProbe _).val (memOf sigs) = signatureAt sigs i := by
  rw [read32_val, segment_memOf sigs _ _ h]
  rfl

theorem collectFetched_eq (out : AcpiData) (table : Option (List UInt8)) :
    collectFetched out table =
      table.elim out fun raw => (collectTable raw.length out).val (memOf raw) := by
  cases table <;> rfl

/-- What the loop leaves: the result of the loop on tables, of which there are as
many as rounds, or the list of tables is full. -/
theorem returns_acpiLoopOnHeap {sigs : Nat} {b : Block} (rounds : Nat) {i : Nat} {h : Heap}
    (out : AcpiData) (hsigs : h.cells sigs = some b)
    (hroom : 4 * (i + rounds) ≤ b.bytes.length) :
    (acpiLoopOnHeap sigs rounds i out).Returns os h fun out' t =>
      h.Keeps t ∧ ∃ ts, ts.length ≤ rounds ∧ DeliveredFrom os b.bytes i h t ts ∧
        out' = acpiLoop out ts ∧
        (ts.length = rounds ∨ acpiMaxDiscoveredTables ≤ out'.discoveredCount) := by
  induction rounds generalizing i h out with
  | zero =>
    exact Prog.returns_pure ⟨.refl h, [], Nat.le_refl _, DeliveredFrom.nil, rfl,
      Or.inl rfl⟩
  | succ rounds ih =>
    refine Prog.returns_ite (fun hmore => ?_) fun hfull => ?_
    · have hreads : StaysIn b.bytes (read32 (4 * i) : AcpiProbe _) :=
        always_read32 fun k _ hk => decide_eq_true (by omega)
      refine (returns_consult hsigs hreads).bind fun signature t ht => ?_
      obtain ⟨rfl, htb, htc⟩ := ht
      rw [read32_signatureAt (by omega), ← Prog.bind_assoc]
      refine (returns_readFetched (collectTable_staysIn hmore) (fun raw hshort => ?_)
        (acpiContent (signatureAt b.bytes i)) t).bind fun out' u hu => ?_
      · rw [collectTable, if_pos hshort, Probe.val_pure]
      obtain ⟨⟨hub, huc⟩, table, hdelivered, rfl⟩ := hu
      rw [← collectFetched_eq]
      have hsigs' : u.cells sigs = some b := by rw [hub, htb, hsigs]
      refine (ih _ hsigs' (by omega)).mono fun out' v hv => ?_
      obtain ⟨⟨hvb, hvc⟩, ts, hlen, hts, hout, hend⟩ := hv
      refine ⟨⟨hvb.trans (hub.trans htb), by omega⟩, table :: ts, ?_, ?_, ?_, ?_⟩
      · exact Nat.succ_le_succ hlen
      · exact hts.cons (hdelivered.widen (by omega) (Nat.le_refl _)) (by omega) hvc
      · rw [acpiLoop, if_pos hmore, hout]
      · exact hend.imp (congrArg (· + 1)) id
    · exact Prog.returns_pure ⟨.refl h, [], Nat.zero_le _, DeliveredFrom.nil, rfl,
        Or.inr (Nat.le_of_not_lt hfull)⟩

/-- The tables that `acpi_collect` was given, of which there are as many as
signatures, or the list of tables is full. -/
def AcpiDelivered (os : HostOs) (h t : Heap) : Option (List (Option (List UInt8))) → Prop
  | none => Refused os signatureContent h t
  | some ts => ∃ n, Store.Between h t n ∧ signatureContent os n ≠ [] ∧
      ts.length ≤ (signatureContent os n).length / 4 ∧
      DeliveredFrom os (signatureContent os n) 0 h t ts ∧
      (ts.length = (signatureContent os n).length / 4 ∨
        acpiMaxDiscoveredTables ≤ (acpiCollect (some ts)).2.discoveredCount)

theorem signatureAt_take {sigs : List UInt8} {i k : Nat} (h : 4 * i + 4 ≤ k) :
    signatureAt (sigs.take k) i = signatureAt sigs i := by
  rw [signatureAt, signatureAt, fieldDword, fieldDword, fieldBytes, fieldBytes, List.drop_take,
    List.take_take, Nat.min_eq_left (by omega)]

theorem returns_acpiCollectOnHeap (h : Heap) :
    acpiCollectOnHeap.Returns os h fun r t =>
      h.Keeps t ∧ ∃ tables, AcpiDelivered os h t tables ∧ r = acpiCollect tables := by
  refine (returns_platformEnumAcpiSignatures h).bind fun enumerated t ht => ?_
  obtain ⟨hcalls, ht⟩ := ht
  cases enumerated with
  | none =>
    obtain ⟨htb, hrefused⟩ := ht
    exact Prog.returns_pure ⟨⟨htb, hcalls⟩, none, hrefused, rfl⟩
  | some r =>
    obtain ⟨sigs, count⟩ := r
    obtain ⟨n, b, hn, hwith, hne, rfl, hbytes⟩ := ht
    have hlen := congrArg List.length hbytes
    rw [List.length_take] at hlen
    refine (returns_acpiLoopOnHeap _ {} hwith.self (by omega)).bind fun out u hu => ?_
    obtain ⟨⟨hub, huc⟩, ts, hts, hdelivered, rfl, hend⟩ := hu
    refine (returns_giveBack (hwith.keeps hub)).bind fun _ v hv => ?_
    obtain ⟨hvb, hvc⟩ := hv
    refine Prog.returns_pure ⟨⟨hvb, by omega⟩, some ts,
      ⟨n, hn.widen (Nat.le_refl _) (by omega), hne, hts, fun j table hj => ?_, hend⟩, rfl⟩
    have hj' : j < ts.length := (List.getElem?_eq_some_iff.mp hj).1
    have hsig := hdelivered j table hj
    rw [hbytes, signatureAt_take (by omega)] at hsig
    exact hsig.widen hcalls (by omega)

/-- Whatever the system answers at each call, every collector comes to its end
without a fault, has freed its blocks and returns what the parsers make of the
tables that it was given. -/
theorem firmwareCollectors_onHeap (os : HostOs) (h : Heap) :
    smbiosCollectOnHeap.Returns os h (fun r t =>
      h.Keeps t ∧ ∃ table, Delivered os smbiosContent h t table ∧ r = smbiosCollect table) ∧
    acpiCollectOnHeap.Returns os h (fun r t =>
      h.Keeps t ∧ ∃ tables, AcpiDelivered os h t tables ∧ r = acpiCollect tables) ∧
    memoryInfoCollectOnHeap.Returns os h fun r t =>
      h.Keeps t ∧ ∃ table, Delivered os smbiosContent h t table ∧
        r = memoryInfoCollect (os.memoryStatus h.calls) table :=
  ⟨returns_smbiosCollectOnHeap h, returns_acpiCollectOnHeap h, returns_memoryInfoCollectOnHeap h⟩

end Acpi

/-!
## A system that does not change
-/

/-- A system with enough memory whose tables stay what they are. -/
structure SteadyOs where
  table : UInt32 → UInt32 → List UInt8
  tables : UInt32 → List UInt8
  memoryStatus : Option MemoryStatusEx

def SteadyOs.host (os : SteadyOs) : HostOs where
  grants _ _ := true
  table _ := os.table
  tables _ := os.tables
  memoryStatus _ := os.memoryStatus

def present (table : List UInt8) : Option (List UInt8) := if table = [] then none else some table

section Steady
variable {os : SteadyOs} {h t : Heap}

theorem refused_steady {content : FirmwareContent} {l : List UInt8}
    (hsteady : ∀ n, content os.host n = l) (hr : Refused os.host content h t) : l = [] := by
  cases hr with
  | missing _ hempty => exact (hsteady _).symm.trans hempty
  | refused _ hrefused => cases hrefused
  | grown _ _ hlt =>
    rw [hsteady, hsteady] at hlt
    exact absurd hlt (Nat.lt_irrefl _)

theorem delivered_steady {content : FirmwareContent} {l : List UInt8}
    (hsteady : ∀ n, content os.host n = l) {table : Option (List UInt8)}
    (hd : Delivered os.host content h t table) : table = present l := by
  cases table with
  | none => rw [present, if_pos (refused_steady hsteady hd)]
  | some raw =>
    obtain ⟨hne, n, _, rfl⟩ := hd
    rw [hsteady] at hne ⊢
    rw [present, if_neg hne]

/-- What is left of the list once the array of tables is full does not matter. -/
theorem acpiLoop_of_full {out : AcpiData} {ts : List (Option (List UInt8))}
    (hfull : acpiMaxDiscoveredTables ≤ (acpiLoop out ts).discoveredCount)
    (us : List (Option (List UInt8))) : acpiLoop out (ts ++ us) = acpiLoop out ts := by
  induction ts generalizing out with
  | nil =>
    rw [acpiLoop] at hfull
    rw [List.nil_append]
    cases us with
    | nil => rfl
    | cons u us => exact if_neg (Nat.not_lt.mpr hfull)
  | cons t ts ih =>
    rw [acpiLoop] at hfull
    rw [List.cons_append, acpiLoop, acpiLoop]
    split
    · rename_i hroom
      rw [if_pos hroom] at hfull
      exact ih hfull
    · rfl

/-- The tables of a steady system for a packed list of signatures, in its order. -/
def SteadyOs.tablesOf (os : SteadyOs) (sigs : List UInt8) : List (Option (List UInt8)) :=
  (List.range (sigs.length / 4)).map fun i => present (os.table acpiProvider (signatureAt sigs i))

def SteadyOs.acpiTables (os : SteadyOs) : Option (List (Option (List UInt8))) :=
  (present (os.tables acpiProvider)).map os.tablesOf

theorem delivered_eq_take {sigs : List UInt8} {ts : List (Option (List UInt8))}
    (hlen : ts.length ≤ sigs.length / 4) (hts : DeliveredFrom os.host sigs 0 h t ts) :
    ts = (os.tablesOf sigs).take ts.length := by
  apply List.ext_getElem?
  intro j
  rcases Nat.lt_or_ge j ts.length with hj | hj
  · have hget := List.getElem?_eq_getElem hj
    have hval := delivered_steady (fun _ => rfl) (hts j _ hget)
    rw [hget, hval, List.getElem?_take_of_lt hj, SteadyOs.tablesOf, List.getElem?_map,
      List.getElem?_range (by omega), Option.map_some, Nat.zero_add]
  · rw [List.getElem?_eq_none hj, List.getElem?_eq_none]
    rw [List.length_take]
    omega

theorem acpiDelivered_steady {tables : Option (List (Option (List UInt8)))}
    (hd : AcpiDelivered os.host h t tables) : acpiCollect tables = acpiCollect os.acpiTables := by
  cases tables with
  | none =>
    have hempty : os.tables acpiProvider = [] := refused_steady (fun _ => rfl) hd
    rw [SteadyOs.acpiTables, hempty]
    rfl
  | some ts =>
    obtain ⟨n, _, hne, hlen, hts, hend⟩ := hd
    change os.tables acpiProvider ≠ [] at hne
    change ts.length ≤ (os.tables acpiProvider).length / 4 at hlen
    change ts.length = (os.tables acpiProvider).length / 4 ∨ _ at hend
    have htake := delivered_eq_take hlen hts
    rw [SteadyOs.acpiTables, present, if_neg hne, Option.map_some, acpiCollect, acpiCollect]
    have hall := List.take_append_drop ts.length (os.tablesOf (os.tables acpiProvider))
    rw [← htake] at hall
    rw [← hall]
    rcases hend with hend | hfull
    · rw [List.drop_of_length_le, List.append_nil]
      rw [SteadyOs.tablesOf, List.length_map, List.length_range, hend]
    · rw [acpiLoop_of_full hfull]

/-- On such a system the collectors return what the parsers make of its tables. -/
theorem firmwareCollectors_steady (os : SteadyOs) (h : Heap) :
    smbiosCollectOnHeap.Returns os.host h (fun r t =>
      h.Keeps t ∧ r = smbiosCollect (present (os.table smbiosProvider 0))) ∧
    acpiCollectOnHeap.Returns os.host h (fun r t =>
      h.Keeps t ∧ r = acpiCollect os.acpiTables) ∧
    memoryInfoCollectOnHeap.Returns os.host h fun r t =>
      h.Keeps t ∧
        r = memoryInfoCollect os.memoryStatus (present (os.table smbiosProvider 0)) := by
  refine ⟨(returns_smbiosCollectOnHeap h).mono fun r t ht => ?_,
    (returns_acpiCollectOnHeap h).mono fun r t ht => ?_,
    (returns_memoryInfoCollectOnHeap h).mono fun r t ht => ?_⟩
  · obtain ⟨hkeeps, table, hd, rfl⟩ := ht
    exact ⟨hkeeps, congrArg smbiosCollect (delivered_steady (fun _ => rfl) hd)⟩
  · obtain ⟨hkeeps, tables, hd, rfl⟩ := ht
    exact ⟨hkeeps, acpiDelivered_steady hd⟩
  · obtain ⟨hkeeps, table, hd, rfl⟩ := ht
    exact ⟨hkeeps, congrArg (memoryInfoCollect _) (delivered_steady (fun _ => rfl) hd)⟩

end Steady
end HwMon
