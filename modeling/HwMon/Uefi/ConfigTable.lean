import HwMon.Lib.Prefer

/-!
# Discovery in the configuration table

The loop of `UefiMain` over the configuration table, with pointers as numbers and
NULL as zero. The GUIDs of the tables are parameters that differ from one another.
-/

namespace HwMon
set_option autoImplicit false

structure EfiGuid where
  data1 : UInt32
  data2 : UInt16
  data3 : UInt16
  data4 : Vector UInt8 8
  deriving DecidableEq

structure EfiConfigurationTable where
  vendorGuid : EfiGuid
  vendorTable : UInt64
  deriving DecidableEq

/-- `gEfiAcpi20TableGuid`, `gEfiAcpi10TableGuid`, `gEfiSmbios3TableGuid` and
`gEfiSmbiosTableGuid`. -/
structure UefiGuids where
  acpi20 : EfiGuid
  acpi10 : EfiGuid
  smbios3 : EfiGuid
  smbios : EfiGuid
  distinct : [acpi20, acpi10, smbios3, smbios].Nodup

/-- `AcpiRsdp`, `SmbiosEntry` and `SmbiosIs64`. -/
structure UefiFound where
  acpiRsdp : UInt64 := 0
  smbiosEntry : UInt64 := 0
  smbiosIs64 : Bool := false
  deriving DecidableEq, Repr

/-- The calls of `UefiMain` in order, with the two messages for what is missing. -/
inductive UefiCall where
  | printCpuInfo
  | printMemoryMap
  | printAcpi (rsdp : UInt64)
  | noRsdp
  | printSmbios (entry : UInt64) (is64 : Bool)
  | noEntryPoint
  deriving DecidableEq, Repr

section Code
variable (g : UefiGuids)

/-- The body of the loop. -/
def visitEntry (found : UefiFound) (ct : EfiConfigurationTable) : UefiFound :=
  if ct.vendorGuid = g.acpi20 then { found with acpiRsdp := ct.vendorTable }
  else if found.acpiRsdp = 0 ∧ ct.vendorGuid = g.acpi10 then
    { found with acpiRsdp := ct.vendorTable }
  else if ct.vendorGuid = g.smbios3 then
    { found with smbiosEntry := ct.vendorTable, smbiosIs64 := true }
  else if found.smbiosEntry = 0 ∧ ct.vendorGuid = g.smbios then
    { found with smbiosEntry := ct.vendorTable, smbiosIs64 := false }
  else found

def discover (table : List EfiConfigurationTable) : UefiFound := table.foldl (visitEntry g) {}

def uefiMain (table : List EfiConfigurationTable) : List UefiCall :=
  let found := discover g table
  [.printCpuInfo, .printMemoryMap,
   if found.acpiRsdp ≠ 0 then .printAcpi found.acpiRsdp else .noRsdp,
   if found.smbiosEntry ≠ 0 then .printSmbios found.smbiosEntry found.smbiosIs64 else .noEntryPoint]

end Code

/-!
## The choice
-/

section Choice
variable (g : UefiGuids)

def EfiConfigurationTable.isGuid (guid : EfiGuid) (ct : EfiConfigurationTable) : Bool :=
  decide (ct.vendorGuid = guid)

/-- The entry whose pointer is kept, or none. -/
def keptPointer (kept : Option EfiConfigurationTable) : UInt64 :=
  (kept.map EfiConfigurationTable.vendorTable).getD 0

/-- The loop has kept these two entries. -/
structure UefiFound.Keeps (found : UefiFound) (acpi smbios : Option EfiConfigurationTable) :
    Prop where
  acpiRsdp : found.acpiRsdp = keptPointer acpi
  smbiosEntry : found.smbiosEntry = keptPointer smbios
  smbiosIs64 : found.smbiosIs64 = smbios.any (EfiConfigurationTable.isGuid g.smbios3)
  acpiNonNull : ∀ ct ∈ acpi, ct.vendorTable ≠ 0
  smbiosNonNull : ∀ ct ∈ smbios, ct.vendorTable ≠ 0

variable {g} {found : UefiFound} {ct : EfiConfigurationTable}
  {acpi smbios : Option EfiConfigurationTable}

theorem keptPointer_eq_zero_iff (h : ∀ ct ∈ acpi, ct.vendorTable ≠ 0) :
    keptPointer acpi = 0 ↔ acpi = none := by
  cases acpi with
  | none => exact iff_of_true rfl rfl
  | some ct => exact iff_of_false (h ct rfl) (Option.some_ne_none ct)

theorem isGuid_of_eq {guid : EfiGuid} (h : ct.vendorGuid = guid) : ct.isGuid guid = true :=
  decide_eq_true h

theorem isGuid_of_ne {guid : EfiGuid} (h : ct.vendorGuid ≠ guid) : ct.isGuid guid = false :=
  decide_eq_false h

/-- What the loop keeps of ACPI and of SMBIOS after an entry. -/
def preferAcpi (g : UefiGuids) :
    Option EfiConfigurationTable → EfiConfigurationTable → Option EfiConfigurationTable :=
  prefer (EfiConfigurationTable.isGuid g.acpi20) (EfiConfigurationTable.isGuid g.acpi10)

def preferSmbios (g : UefiGuids) :
    Option EfiConfigurationTable → EfiConfigurationTable → Option EfiConfigurationTable :=
  prefer (EfiConfigurationTable.isGuid g.smbios3) (EfiConfigurationTable.isGuid g.smbios)

theorem UefiFound.Keeps.takeAcpi (h : found.Keeps g acpi smbios) (hct : ct.vendorTable ≠ 0) :
    UefiFound.Keeps g { found with acpiRsdp := ct.vendorTable } (some ct) smbios := by
  refine ⟨rfl, h.smbiosEntry, h.smbiosIs64, ?_, h.smbiosNonNull⟩
  intro c hc
  obtain rfl := Option.some.inj hc
  exact hct

theorem UefiFound.Keeps.takeSmbios (h : found.Keeps g acpi smbios) (hct : ct.vendorTable ≠ 0)
    {is64 : Bool} (his64 : is64 = ct.isGuid g.smbios3) :
    UefiFound.Keeps g { found with smbiosEntry := ct.vendorTable, smbiosIs64 := is64 } acpi
      (some ct) := by
  refine ⟨h.acpiRsdp, rfl, his64, h.acpiNonNull, ?_⟩
  intro c hc
  obtain rfl := Option.some.inj hc
  exact hct

theorem UefiGuids.distinct_iff {a b c d : EfiGuid} : [a, b, c, d].Nodup ↔
    (a ≠ b ∧ a ≠ c ∧ a ≠ d) ∧ (b ≠ c ∧ b ≠ d) ∧ c ≠ d := by
  simp only [List.nodup_cons, List.mem_cons, List.not_mem_nil, or_false, not_or, not_false_eq_true,
    List.nodup_nil, and_true, ne_eq]

/-- One entry is taken as the rule of preference has it. -/
theorem UefiFound.Keeps.visit (h : found.Keeps g acpi smbios) (hct : ct.vendorTable ≠ 0) :
    (visitEntry g found ct).Keeps g (preferAcpi g acpi ct) (preferSmbios g smbios ct) := by
  obtain ⟨⟨h21, h23, h2s⟩, ⟨h13, h1s⟩, h3s⟩ := UefiGuids.distinct_iff.mp g.distinct
  have hacpi : found.acpiRsdp = 0 ↔ acpi = none := by
    rw [h.acpiRsdp, keptPointer_eq_zero_iff h.acpiNonNull]
  have hsmbios : found.smbiosEntry = 0 ↔ smbios = none := by
    rw [h.smbiosEntry, keptPointer_eq_zero_iff h.smbiosNonNull]
  unfold visitEntry preferAcpi preferSmbios
  by_cases h2 : ct.vendorGuid = g.acpi20
  · have hn3 : ct.isGuid g.smbios3 = false := isGuid_of_ne (h2 ▸ h23)
    have hns : ct.isGuid g.smbios = false := isGuid_of_ne (h2 ▸ h2s)
    rw [if_pos h2, prefer_of_best (isGuid_of_eq h2), prefer_of_neither hn3 hns]
    exact h.takeAcpi hct
  have hn2 : ct.isGuid g.acpi20 = false := isGuid_of_ne h2
  rw [if_neg h2]
  by_cases h1 : ct.vendorGuid = g.acpi10
  · have hn3 : ct.isGuid g.smbios3 = false := isGuid_of_ne (h1 ▸ h13)
    have hns : ct.isGuid g.smbios = false := isGuid_of_ne (h1 ▸ h1s)
    rw [prefer_of_neither hn3 hns]
    cases acpi with
    | none =>
      rw [if_pos ⟨hacpi.mpr rfl, h1⟩, prefer_of_fallback hn2 (isGuid_of_eq h1)]
      exact h.takeAcpi hct
    | some c =>
      -- A pointer was found already: the entry falls through to the tests for SMBIOS.
      rw [if_neg fun hboth => Option.some_ne_none c (hacpi.mp hboth.1), if_neg (h1 ▸ h13),
        if_neg fun hboth => h1s (h1.symm.trans hboth.2), prefer_some hn2]
      exact h
  rw [if_neg fun hboth => h1 hboth.2, prefer_of_neither hn2 (isGuid_of_ne h1)]
  by_cases h3 : ct.vendorGuid = g.smbios3
  · rw [if_pos h3, prefer_of_best (isGuid_of_eq h3)]
    exact h.takeSmbios hct (isGuid_of_eq h3).symm
  have hn3 : ct.isGuid g.smbios3 = false := isGuid_of_ne h3
  rw [if_neg h3]
  by_cases hs : ct.vendorGuid = g.smbios
  · cases smbios with
    | none =>
      rw [if_pos ⟨hsmbios.mpr rfl, hs⟩, prefer_of_fallback hn3 (isGuid_of_eq hs)]
      exact h.takeSmbios hct hn3.symm
    | some c =>
      rw [if_neg fun hboth => Option.some_ne_none c (hsmbios.mp hboth.1), prefer_some hn3]
      exact h
  rw [if_neg fun hboth => hs hboth.2, prefer_of_neither hn3 (isGuid_of_ne hs)]
  exact h

/-- What is kept determines what was found. -/
theorem UefiFound.Keeps.unique {found' : UefiFound} (h : found.Keeps g acpi smbios)
    (h' : found'.Keeps g acpi smbios) : found = found' := by
  have hacpi := h.acpiRsdp.trans h'.acpiRsdp.symm
  have hentry := h.smbiosEntry.trans h'.smbiosEntry.symm
  have his64 := h.smbiosIs64.trans h'.smbiosIs64.symm
  cases found
  cases found'
  cases hacpi
  cases hentry
  cases his64
  rfl

/-- The loop keeps the preferred entries. -/
theorem UefiFound.Keeps.visits (h : found.Keeps g acpi smbios)
    {table : List EfiConfigurationTable} (hnonNull : ∀ ct ∈ table, ct.vendorTable ≠ 0) :
    (table.foldl (visitEntry g) found).Keeps g (table.foldl (preferAcpi g) acpi)
      (table.foldl (preferSmbios g) smbios) := by
  induction table generalizing found acpi smbios with
  | nil => exact h
  | cons ct table ih =>
    obtain ⟨hct, htable⟩ := List.forall_mem_cons.mp hnonNull
    exact ih (h.visit hct) htable

end Choice

/-!
## The whole table
-/

section Tables
variable {g : UefiGuids} {table : List EfiConfigurationTable}

theorem keeps_empty : UefiFound.Keeps g {} none none := by
  refine ⟨rfl, rfl, rfl, ?_, ?_⟩
  · intro ct hct
    exact absurd hct (Option.not_mem_none ct)
  · intro ct hct
    exact absurd hct (Option.not_mem_none ct)

def keptAcpi (g : UefiGuids) (table : List EfiConfigurationTable) :
    Option EfiConfigurationTable :=
  preferred (EfiConfigurationTable.isGuid g.acpi20) (EfiConfigurationTable.isGuid g.acpi10) table

def keptSmbios (g : UefiGuids) (table : List EfiConfigurationTable) :
    Option EfiConfigurationTable :=
  preferred (EfiConfigurationTable.isGuid g.smbios3) (EfiConfigurationTable.isGuid g.smbios) table

theorem discover_keeps (hnonNull : ∀ ct ∈ table, ct.vendorTable ≠ 0) :
    (discover g table).Keeps g (keptAcpi g table) (keptSmbios g table) := by
  have h := keeps_empty.visits (g := g) hnonNull
  unfold preferAcpi preferSmbios at h
  rw [foldl_prefer, foldl_prefer] at h
  exact h

/-- A pointer from an entry of the first GUID if there is one, else from one of the
second, else NULL. -/
structure Chosen (first second : EfiGuid) (table : List EfiConfigurationTable)
    (pointer : UInt64) : Prop where
  ofFirst : (∃ ct ∈ table, ct.vendorGuid = first) →
    ∃ ct ∈ table, ct.vendorGuid = first ∧ pointer = ct.vendorTable
  ofSecond : (∀ ct ∈ table, ct.vendorGuid ≠ first) → (∃ ct ∈ table, ct.vendorGuid = second) →
    ∃ ct ∈ table, ct.vendorGuid = second ∧ pointer = ct.vendorTable
  null : (∀ ct ∈ table, ct.vendorGuid ≠ first ∧ ct.vendorGuid ≠ second) → pointer = 0

theorem keptPointer_of_mem {ct : EfiConfigurationTable} {kept : Option EfiConfigurationTable}
    (h : ct ∈ kept) : keptPointer kept = ct.vendorTable := by
  obtain rfl := Option.mem_def.mp h
  rfl

theorem chosen_preferred (first second : EfiGuid) :
    Chosen first second table (keptPointer (preferred (EfiConfigurationTable.isGuid first)
      (EfiConfigurationTable.isGuid second) table)) := by
  refine ⟨?_, ?_, ?_⟩
  · rintro ⟨ct, hct, heq⟩
    obtain ⟨kept, hkept, hmem, hguid⟩ := preferred_of_best ⟨ct, hct, isGuid_of_eq heq⟩
    exact ⟨kept, hmem, of_decide_eq_true hguid, keptPointer_of_mem hkept⟩
  · rintro hnone ⟨ct, hct, heq⟩
    obtain ⟨kept, hkept, hmem, hguid⟩ := preferred_of_fallback
      (fun c hc => isGuid_of_ne (hnone c hc)) ⟨ct, hct, isGuid_of_eq heq⟩
    exact ⟨kept, hmem, of_decide_eq_true hguid, keptPointer_of_mem hkept⟩
  · intro hnone
    rw [preferred_eq_none fun ct hct =>
      ⟨isGuid_of_ne (hnone ct hct).1, isGuid_of_ne (hnone ct hct).2⟩]
    rfl

/-- The flag is that of the entry kept. -/
theorem smbiosIs64_iff (hnonNull : ∀ ct ∈ table, ct.vendorTable ≠ 0) :
    (discover g table).smbiosIs64 = true ↔ ∃ ct ∈ table, ct.vendorGuid = g.smbios3 ∧
      (discover g table).smbiosEntry = ct.vendorTable := by
  have h := discover_keeps (g := g) hnonNull
  rw [h.smbiosIs64, h.smbiosEntry, Option.any_eq_true]
  constructor
  · rintro ⟨ct, hkept, hguid⟩
    exact ⟨ct, (mem_of_mem_preferred hkept).1, of_decide_eq_true hguid, keptPointer_of_mem hkept⟩
  · rintro ⟨ct, hct, hguid, -⟩
    obtain ⟨kept, hkept, -, hbest⟩ := preferred_of_best ⟨ct, hct, isGuid_of_eq hguid⟩
    exact ⟨kept, hkept, hbest⟩

/-- What the end of `UefiMain` does with what the loop found. -/
theorem mem_uefiMain_printAcpi {rsdp : UInt64} : UefiCall.printAcpi rsdp ∈ uefiMain g table ↔
    rsdp = (discover g table).acpiRsdp ∧ rsdp ≠ 0 := by
  by_cases hacpi : (discover g table).acpiRsdp = 0
  · by_cases hsmbios : (discover g table).smbiosEntry = 0 <;> simp [uefiMain, hacpi, hsmbios]
  · by_cases hsmbios : (discover g table).smbiosEntry = 0 <;>
      simp +contextual [uefiMain, hacpi, hsmbios]

theorem mem_uefiMain_printSmbios {entry : UInt64} {is64 : Bool} :
    UefiCall.printSmbios entry is64 ∈ uefiMain g table ↔
      (entry = (discover g table).smbiosEntry ∧ is64 = (discover g table).smbiosIs64) ∧
        entry ≠ 0 := by
  by_cases hsmbios : (discover g table).smbiosEntry = 0
  · by_cases hacpi : (discover g table).acpiRsdp = 0 <;>
      simp +contextual [uefiMain, hacpi, hsmbios]
  · by_cases hacpi : (discover g table).acpiRsdp = 0 <;>
      simp +contextual [uefiMain, hacpi, hsmbios]

/-- What `UefiMain` ends with, and what it hands on. -/
structure ConfigChoice (g : UefiGuids) (table : List EfiConfigurationTable) : Prop where
  acpi : Chosen g.acpi20 g.acpi10 table (discover g table).acpiRsdp
  smbios : Chosen g.smbios3 g.smbios table (discover g table).smbiosEntry
  printAcpi : ∀ rsdp, .printAcpi rsdp ∈ uefiMain g table ↔
    rsdp = (discover g table).acpiRsdp ∧ rsdp ≠ 0
  printSmbios : ∀ entry is64, .printSmbios entry is64 ∈ uefiMain g table ↔
    (entry = (discover g table).smbiosEntry ∧ is64 = (discover g table).smbiosIs64) ∧ entry ≠ 0
  is64 : ∀ entry is64, .printSmbios entry is64 ∈ uefiMain g table →
    (is64 = true ↔ ∃ ct ∈ table, ct.vendorGuid = g.smbios3 ∧ entry = ct.vendorTable)

theorem configChoice (hnonNull : ∀ ct ∈ table, ct.vendorTable ≠ 0) : ConfigChoice g table where
  acpi := by
    rw [(discover_keeps hnonNull).acpiRsdp]
    exact chosen_preferred g.acpi20 g.acpi10
  smbios := by
    rw [(discover_keeps hnonNull).smbiosEntry]
    exact chosen_preferred g.smbios3 g.smbios
  printAcpi _ := mem_uefiMain_printAcpi
  printSmbios _ _ := mem_uefiMain_printSmbios
  is64 := by
    intro entry is64 hcall
    obtain ⟨⟨rfl, rfl⟩, -⟩ := mem_uefiMain_printSmbios.mp hcall
    exact smbiosIs64_iff hnonNull

/-- Each of the four GUIDs occurs once at most. -/
def OnceEach (g : UefiGuids) (table : List EfiConfigurationTable) : Prop :=
  ∀ guid ∈ [g.acpi20, g.acpi10, g.smbios3, g.smbios],
    (table.filter (EfiConfigurationTable.isGuid guid)).length ≤ 1

instance : Decidable (OnceEach g table) := inferInstanceAs (Decidable (∀ _ ∈ _, _))

theorem discover_perm {table' : List EfiConfigurationTable}
    (hnonNull : ∀ ct ∈ table, ct.vendorTable ≠ 0) (h : table.Perm table')
    (honce : OnceEach g table) : discover g table' = discover g table := by
  have hkeeps := discover_keeps (g := g) hnonNull
  have hkeeps' := discover_keeps (g := g) fun ct hct => hnonNull ct (h.mem_iff.mpr hct)
  have hacpi : keptAcpi g table' = keptAcpi g table :=
    preferred_perm h (honce g.acpi20 (by simp)) (honce g.acpi10 (by simp))
  have hsmbios : keptSmbios g table' = keptSmbios g table :=
    preferred_perm h (honce g.smbios3 (by simp)) (honce g.smbios (by simp))
  rw [hacpi, hsmbios] at hkeeps'
  exact hkeeps'.unique hkeeps

/-- The choice of `UefiMain` is by rank alone; where no GUID repeats it does not depend on
the order of the table. -/
theorem configTable_choice (g : UefiGuids) (table : List EfiConfigurationTable)
    (hnonNull : ∀ ct ∈ table, ct.vendorTable ≠ 0) :
    ConfigChoice g table ∧ (OnceEach g table → ∀ table', table.Perm table' →
      discover g table' = discover g table ∧ uefiMain g table' = uefiMain g table) := by
  refine ⟨configChoice hnonNull, ?_⟩
  intro honce table' h
  have hdiscover := discover_perm hnonNull h honce
  exact ⟨hdiscover, by rw [uefiMain, uefiMain, hdiscover]⟩

end Tables

section Example

def efiGuids : UefiGuids where
  acpi20 := ⟨0x8868E871, 0xE4F1, 0x11D3, #v[0xBC, 0x22, 0x00, 0x80, 0xC7, 0x3C, 0x88, 0x81]⟩
  acpi10 := ⟨0xEB9D2D30, 0x2D88, 0x11D3, #v[0x9A, 0x16, 0x00, 0x90, 0x27, 0x3F, 0xC1, 0x4D]⟩
  smbios3 := ⟨0xF2FD1544, 0x9794, 0x4A2C, #v[0x99, 0x2E, 0xE5, 0xBB, 0xCF, 0x20, 0xE3, 0x94]⟩
  smbios := ⟨0xEB9D2D31, 0x2D88, 0x11D3, #v[0x9A, 0x16, 0x00, 0x90, 0x27, 0x3F, 0xC1, 0x4D]⟩
  distinct := by decide

/-- The older tables before the newer ones. -/
def oldFirst : List EfiConfigurationTable :=
  [⟨efiGuids.acpi10, 0x7000⟩, ⟨efiGuids.smbios, 0xF0000⟩, ⟨efiGuids.acpi20, 0x7014⟩]

theorem oldFirst_choice : ConfigChoice efiGuids oldFirst ∧
    ∀ table, oldFirst.Perm table → discover efiGuids table = ⟨0x7014, 0xF0000, false⟩ := by
  obtain ⟨hchoice, hperm⟩ := configTable_choice efiGuids oldFirst (by decide)
  refine ⟨hchoice, ?_⟩
  intro table h
  have honce : OnceEach efiGuids oldFirst := by decide
  exact (hperm honce table h).1.trans (by decide)

end Example
end HwMon
