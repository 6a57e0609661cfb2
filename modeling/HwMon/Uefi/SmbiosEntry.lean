import HwMon.Uefi.Acpi
import HwMon.Uefi.ConfigTable

/-!
# The SMBIOS entry point of the UEFI application

`PrintSmbios` of `HwMonUefi.c`, and the entry point that `UefiMain` hands to it. An
entry point is known before it is encoded; its length and its checksum are computed.
-/

namespace HwMon
set_option autoImplicit false

inductive SmbiosLine where
  | title
  | checksum (is64 ok : Bool)
  | version (majorVersion minorVersion : UInt8)
  | table64 (tableAddress : UInt64) (tableMaximumSize : UInt32)
  | table32 (tableAddress : UInt32) (tableLength numberOfStructures : UInt16)
  | blank
  | notPresent
  deriving DecidableEq, Repr

section Code

def printSmbios64 (e : Nat) : UefiProbe (List SmbiosLine) := do
  let length ← .ask (e + 6)
  let ok ← uefiChecksumOk e length.toNat
  let majorVersion ← .ask (e + 7)
  let minorVersion ← .ask (e + 8)
  let tableAddress ← read64 (e + 16)
  let tableMaximumSize ← read32 (e + 12)
  pure [.checksum true ok, .version majorVersion minorVersion,
    .table64 tableAddress tableMaximumSize]

def printSmbios32 (e : Nat) : UefiProbe (List SmbiosLine) := do
  let length ← .ask (e + 5)
  let ok ← uefiChecksumOk e length.toNat
  let majorVersion ← .ask (e + 6)
  let minorVersion ← .ask (e + 7)
  let tableAddress ← read32 (e + 24)
  let tableLength ← read16 (e + 22)
  let numberOfStructures ← read16 (e + 28)
  pure [.checksum false ok, .version majorVersion minorVersion,
    .table32 tableAddress tableLength numberOfStructures]

def printSmbios (entry : Nat) (is64 : Bool) : UefiProbe (List SmbiosLine) := do
  let lines ← cond is64 (printSmbios64 entry) (printSmbios32 entry)
  pure (.title :: lines ++ [.blank])

/-- What a call of `UefiMain` prints about SMBIOS. -/
def UefiCall.printsSmbios : UefiCall → UefiProbe (List SmbiosLine)
  | .printSmbios entry is64 => HwMon.printSmbios entry.toNat is64
  | .noEntryPoint => pure [.notPresent]
  | _ => pure []

def printCalls : List UefiCall → UefiProbe (List SmbiosLine)
  | [] => pure []
  | call :: calls => do
    let lines ← call.printsSmbios
    let rest ← printCalls calls
    pure (lines ++ rest)

/-- What a run of `UefiMain` prints about SMBIOS. -/
def uefiMainSmbios (g : UefiGuids) (table : List EfiConfigurationTable) :
    UefiProbe (List SmbiosLine) := printCalls (uefiMain g table)

end Code

/-!
## Entry points before they are encoded
-/

/-- What stands behind the length; `skipped` is what is not read between the version
and the table. -/
inductive SmbiosFields where
  | entry64 (majorVersion minorVersion : UInt8) (skipped : List UInt8) (tableMaximumSize : UInt32)
      (tableAddress : UInt64) (three : skipped.length = 3)
  | entry32 (majorVersion minorVersion : UInt8) (skipped : List UInt8) (tableLength : UInt16)
      (tableAddress : UInt32) (numberOfStructures : UInt16) (bcdRevision : UInt8)
      (fourteen : skipped.length = 14)

namespace SmbiosFields

def is64 : SmbiosFields → Bool
  | entry64 .. => true
  | entry32 .. => false

/-- The length of the anchor, which is where the checksum stands. -/
def anchorSize : SmbiosFields → Nat
  | entry64 .. => 5
  | entry32 .. => 4

def encode : SmbiosFields → List UInt8
  | entry64 majorVersion minorVersion skipped tableMaximumSize tableAddress _ =>
    majorVersion :: minorVersion ::
      (skipped ++ (leBytes 4 tableMaximumSize.toNat ++ leBytes 8 tableAddress.toNat))
  | entry32 majorVersion minorVersion skipped tableLength tableAddress numberOfStructures
      bcdRevision _ =>
    majorVersion :: minorVersion ::
      (skipped ++ (leBytes 2 tableLength.toNat ++ (leBytes 4 tableAddress.toNat ++
        (leBytes 2 numberOfStructures.toNat ++ [bcdRevision]))))

/-- The lines about the entry point, with the verdict on its checksum. -/
def lines (ok : Bool) : SmbiosFields → List SmbiosLine
  | entry64 majorVersion minorVersion _ tableMaximumSize tableAddress _ =>
    [.checksum true ok, .version majorVersion minorVersion, .table64 tableAddress tableMaximumSize]
  | entry32 majorVersion minorVersion _ tableLength tableAddress numberOfStructures _ _ =>
    [.checksum false ok, .version majorVersion minorVersion,
      .table32 tableAddress tableLength numberOfStructures]

end SmbiosFields

structure SmbiosEntryPoint where
  anchor : List UInt8
  fields : SmbiosFields
  /-- What a later version of the format has behind the fields. -/
  more : List UInt8
  anchor_length : anchor.length = fields.anchorSize
  fits : fields.anchorSize + 2 + fields.encode.length + more.length < 256

namespace SmbiosEntryPoint
variable (e : SmbiosEntryPoint)

def length : Nat := e.fields.anchorSize + 2 + e.fields.encode.length + e.more.length

/-- What stands behind the checksum. -/
def back : List UInt8 := UInt8.ofNat e.length :: (e.fields.encode ++ e.more)

def checksum : UInt8 := UInt8.ofNat (256 - (byteSum e.anchor + byteSum e.back) % 256)

def encode : List UInt8 := e.anchor ++ e.checksum :: e.back

theorem encode_length : e.encode.length = e.length := by
  rw [encode, back, List.length_append, List.length_cons, List.length_cons, List.length_append,
    e.anchor_length, length]
  omega

theorem byteSum_encode : byteSum e.encode % 256 = 0 := byteSum_closed e.anchor e.back

theorem length_toNat : (UInt8.ofNat e.length).toNat = e.length :=
  UInt8.toNat_ofNat_of_lt' e.fits

/-- Where the length stands. -/
def lengthPlace : Nat := e.fields.anchorSize + 1

end SmbiosEntryPoint

/-!
## What is printed and what is read
-/

section Fields
variable {m : Mem} {p n : Nat} {majorVersion minorVersion : UInt8} {skipped : List UInt8}

theorem printSmbios64_val {tableMaximumSize : UInt32} {tableAddress : UInt64}
    {three : skipped.length = 3}
    (hfields : segment m (p + 7) n =
      (SmbiosFields.entry64 majorVersion minorVersion skipped tableMaximumSize tableAddress
        three).encode)
    (hchecksum : (uefiChecksumOk p (m (p + 6)).toNat).val m = true) :
    (printSmbios64 p).val m = [.checksum true true, .version majorVersion minorVersion,
      .table64 tableAddress tableMaximumSize] := by
  have hmajor : m (p + 7 + 0) = majorVersion := byte_middle m [] _ hfields rfl
  have hminor : m (p + 7 + 1) = minorVersion := byte_middle m [majorVersion] _ hfields rfl
  have hsize : (read32 (p + 7 + 5) : UefiProbe _).val m = tableMaximumSize := by
    refine read32_middle (majorVersion :: minorVersion :: skipped) _ hfields ?_
    rw [List.length_cons, List.length_cons, three]
  have haddress : (read64 (p + 7 + 9) : UefiProbe _).val m = tableAddress := by
    refine read64_middle (majorVersion :: minorVersion :: skipped ++
      leBytes 4 tableMaximumSize.toNat) [] (hfields.trans ?_) ?_
    · simp only [SmbiosFields.encode, List.cons_append, List.append_assoc, List.append_nil]
    · simp only [List.length_append, List.length_cons, leBytes_length, three]
  change [SmbiosLine.checksum true ((uefiChecksumOk p (m (p + 6)).toNat).val m),
    .version (m (p + 7)) (m (p + 8)),
    .table64 ((read64 (p + 16) : UefiProbe _).val m) ((read32 (p + 12) : UefiProbe _).val m)] = _
  rw [hchecksum, ← hmajor, ← hminor, ← hsize, ← haddress]

theorem printSmbios32_val {tableLength numberOfStructures : UInt16} {tableAddress : UInt32}
    {bcdRevision : UInt8} {fourteen : skipped.length = 14}
    (hfields : segment m (p + 6) n =
      (SmbiosFields.entry32 majorVersion minorVersion skipped tableLength tableAddress
        numberOfStructures bcdRevision fourteen).encode)
    (hchecksum : (uefiChecksumOk p (m (p + 5)).toNat).val m = true) :
    (printSmbios32 p).val m = [.checksum false true, .version majorVersion minorVersion,
      .table32 tableAddress tableLength numberOfStructures] := by
  have hmajor : m (p + 6 + 0) = majorVersion := byte_middle m [] _ hfields rfl
  have hminor : m (p + 6 + 1) = minorVersion := byte_middle m [majorVersion] _ hfields rfl
  have hlength : (read16 (p + 6 + 16) : UefiProbe _).val m = tableLength := by
    refine read16_middle (majorVersion :: minorVersion :: skipped) _ hfields ?_
    rw [List.length_cons, List.length_cons, fourteen]
  have haddress : (read32 (p + 6 + 18) : UefiProbe _).val m = tableAddress := by
    refine read32_middle (majorVersion :: minorVersion :: skipped ++
      leBytes 2 tableLength.toNat) (leBytes 2 numberOfStructures.toNat ++ [bcdRevision])
      (hfields.trans ?_) ?_
    · simp only [SmbiosFields.encode, List.cons_append, List.append_assoc]
    · simp only [List.length_append, List.length_cons, leBytes_length, fourteen]
  have hnumber : (read16 (p + 6 + 22) : UefiProbe _).val m = numberOfStructures := by
    refine read16_middle (majorVersion :: minorVersion :: skipped ++
      leBytes 2 tableLength.toNat ++ leBytes 4 tableAddress.toNat) [bcdRevision]
      (hfields.trans ?_) ?_
    · simp only [SmbiosFields.encode, List.cons_append, List.append_assoc]
    · simp only [List.length_append, List.length_cons, leBytes_length, fourteen]
  change [SmbiosLine.checksum false ((uefiChecksumOk p (m (p + 5)).toNat).val m),
    .version (m (p + 6)) (m (p + 7)),
    .table32 ((read32 (p + 24) : UefiProbe _).val m) ((read16 (p + 22) : UefiProbe _).val m)
      ((read16 (p + 28) : UefiProbe _).val m)] = _
  rw [hchecksum, ← hmajor, ← hminor, ← hlength, ← haddress, ← hnumber]


theorem reads_within (off k : Nat) (h : off + k ≤ n) (i : Nat) (hlo : p + off ≤ i)
    (hhi : i < p + off + k) : ReadsWithin p (p + n) (Access.read i : Access Nat UefiEvent) :=
  ⟨Nat.le_trans (Nat.le_add_right p off) hlo, by omega⟩

theorem printSmbios64_within (hsize : 24 ≤ n) (hlength : (m (p + 6)).toNat ≤ n) :
    (printSmbios64 p).Always (ReadsWithin p (p + n)) m := by
  unfold printSmbios64
  simp only [Probe.always_bind, Probe.always_ask, Probe.always_pure, and_true, Probe.val_ask]
  refine ⟨reads_within 6 1 (by omega) _ (Nat.le_refl _) (Nat.lt_succ_self _),
    always_uefiChecksumOk_block (reads_within 0 _ (by omega)),
    reads_within 7 1 (by omega) _ (Nat.le_refl _) (Nat.lt_succ_self _),
    reads_within 8 1 (by omega) _ (Nat.le_refl _) (Nat.lt_succ_self _),
    always_read64 (reads_within 16 8 (by omega)), always_read32 (reads_within 12 4 (by omega))⟩

theorem printSmbios32_within (hsize : 31 ≤ n) (hlength : (m (p + 5)).toNat ≤ n) :
    (printSmbios32 p).Always (ReadsWithin p (p + n)) m := by
  unfold printSmbios32
  simp only [Probe.always_bind, Probe.always_ask, Probe.always_pure, and_true, Probe.val_ask]
  refine ⟨reads_within 5 1 (by omega) _ (Nat.le_refl _) (Nat.lt_succ_self _),
    always_uefiChecksumOk_block (reads_within 0 _ (by omega)),
    reads_within 6 1 (by omega) _ (Nat.le_refl _) (Nat.lt_succ_self _),
    reads_within 7 1 (by omega) _ (Nat.le_refl _) (Nat.lt_succ_self _),
    always_read32 (reads_within 24 4 (by omega)), always_read16 (reads_within 22 2 (by omega)),
    always_read16 (reads_within 28 2 (by omega))⟩

end Fields

/-!
## An entry point in memory
-/

namespace SmbiosEntryPoint
variable {e : SmbiosEntryPoint} {m : Mem} {p : Nat}

/-- The entry point stands at `p`. -/
def At (e : SmbiosEntryPoint) (m : Mem) (p : Nat) : Prop := segment m p e.length = e.encode

/-- The first line behind the title is the verdict on the checksum. -/
theorem printSmbios_head (e : SmbiosEntryPoint) (m : Mem) (p : Nat) : ∃ rest,
    (printSmbios p e.fields.is64).val m = .title ::
      .checksum e.fields.is64 ((uefiChecksumOk p (m (p + e.lengthPlace)).toNat).val m) :: rest := by
  rw [lengthPlace]
  cases e.fields with
  | entry64 => exact ⟨_, rfl⟩
  | entry32 => exact ⟨_, rfl⟩

section Placed
variable (h : e.At m p)
include h

theorem At.length_byte : m (p + e.lengthPlace) = UInt8.ofNat e.length := by
  refine byte_middle m (e.anchor ++ [e.checksum]) (e.fields.encode ++ e.more)
    (h.trans ?_) ?_
  · rw [encode, back, List.append_assoc]
    rfl
  · rw [List.length_append, e.anchor_length]
    rfl

theorem At.fields :
    segment m (p + (e.lengthPlace + 1)) e.fields.encode.length = e.fields.encode := by
  refine segment_middle m (e.anchor ++ [e.checksum, UInt8.ofNat e.length]) e.more
    (h.trans ?_) ?_ rfl
  · rw [encode, back, List.append_assoc]
    rfl
  · rw [List.length_append, e.anchor_length]
    rfl

theorem At.checksum_ok : (uefiChecksumOk p (m (p + e.lengthPlace)).toNat).val m = true := by
  rw [uefiChecksumOk_val, h.length_byte, e.length_toNat, h]
  exact decide_eq_true e.byteSum_encode

/-- What is printed about an entry point are its fields. -/
theorem At.printSmbios_val :
    (printSmbios p e.fields.is64).val m = .title :: e.fields.lines true ++ [.blank] := by
  have hchecksum := h.checksum_ok
  have hfields := h.fields
  rw [lengthPlace] at hchecksum hfields
  cases hkind : e.fields with
  | entry64 majorVersion minorVersion skipped tableMaximumSize tableAddress three =>
    rw [hkind] at hchecksum hfields
    have hlines := printSmbios64_val hfields hchecksum
    exact congrArg (fun lines => SmbiosLine.title :: lines ++ [.blank]) hlines
  | entry32 majorVersion minorVersion skipped tableLength tableAddress numberOfStructures
      bcdRevision fourteen =>
    rw [hkind] at hchecksum hfields
    have hlines := printSmbios32_val hfields hchecksum
    exact congrArg (fun lines => SmbiosLine.title :: lines ++ [.blank]) hlines

/-- All that is read lies in the entry point. -/
theorem At.printSmbios_reads :
    (printSmbios p e.fields.is64).Always (ReadsWithin p (p + e.length)) m := by
  have hlength : (m (p + e.lengthPlace)).toNat = e.length := by
    rw [h.length_byte, e.length_toNat]
  have hsize : e.fields.anchorSize + 2 + e.fields.encode.length ≤ e.length := Nat.le_add_right _ _
  unfold printSmbios
  rw [Probe.always_bind, and_iff_left (Probe.always_pure _)]
  rw [lengthPlace] at hlength
  cases hkind : e.fields with
  | entry64 majorVersion minorVersion skipped tableMaximumSize tableAddress three =>
    rw [hkind] at hlength hsize
    refine printSmbios64_within ?_ (Nat.le_of_eq hlength)
    simp only [SmbiosFields.anchorSize, SmbiosFields.encode, List.length_cons, List.length_append,
      leBytes_length, three] at hsize
    exact hsize
  | entry32 majorVersion minorVersion skipped tableLength tableAddress numberOfStructures
      bcdRevision fourteen =>
    rw [hkind] at hlength hsize
    refine printSmbios32_within ?_ (Nat.le_of_eq hlength)
    simp only [SmbiosFields.anchorSize, SmbiosFields.encode, List.length_cons, List.length_append,
      leBytes_length, List.length_nil, fourteen] at hsize
    exact hsize

/-- Another byte anywhere but in the length is noticed. -/
theorem At.printSmbios_setByte {q : Nat} {b : UInt8} (hlo : p ≤ q) (hhi : q < p + e.length)
    (hq : q ≠ p + e.lengthPlace) (hb : b ≠ m q) : ∃ rest,
      (printSmbios p e.fields.is64).val (setByte m q b) =
        .title :: .checksum e.fields.is64 false :: rest := by
  obtain ⟨rest, hrest⟩ := e.printSmbios_head (setByte m q b) p
  have hsum : byteSum (segment m p e.length) % 256 = 0 := by
    rw [h]
    exact e.byteSum_encode
  have hbad : (uefiChecksumOk p (setByte m q b (p + e.lengthPlace)).toNat).val (setByte m q b) =
      false := by
    rw [uefiChecksumOk_val, setByte_of_ne hq.symm, h.length_byte, e.length_toNat]
    exact decide_eq_false (byteSum_setByte_ne hlo hhi hb hsum)
  rw [hbad] at hrest
  exact ⟨rest, hrest⟩

end Placed
end SmbiosEntryPoint

/-!
## The whole run
-/

/-- What a system hands to the application: every pointer to SMBIOS points to an entry
point of its kind. -/
structure UefiSystem (g : UefiGuids) where
  memory : Mem
  table : List EfiConfigurationTable
  entryPoint : EfiConfigurationTable → SmbiosEntryPoint
  nonNull : ∀ ct ∈ table, ct.vendorTable ≠ 0
  smbios3 : ∀ ct ∈ table, ct.vendorGuid = g.smbios3 → (entryPoint ct).fields.is64 = true
  smbios : ∀ ct ∈ table, ct.vendorGuid = g.smbios → (entryPoint ct).fields.is64 = false
  placed : ∀ ct ∈ table, ct.vendorGuid = g.smbios3 ∨ ct.vendorGuid = g.smbios →
    (entryPoint ct).At memory ct.vendorTable.toNat

/-- The system with one entry point, which stands at `address`. -/
def SmbiosEntryPoint.installed (g : UefiGuids) (e : SmbiosEntryPoint) (m : Mem) (address : UInt64)
    (nonNull : address ≠ 0) : UefiSystem g where
  memory := store m address.toNat e.encode
  table := [⟨cond e.fields.is64 g.smbios3 g.smbios, address⟩]
  entryPoint _ := e
  nonNull := by
    intro ct hct
    obtain rfl := List.mem_singleton.mp hct
    exact nonNull
  smbios3 := by
    intro ct hct hguid
    obtain rfl := List.mem_singleton.mp hct
    cases hkind : e.fields.is64 with
    | true => rfl
    | false =>
      rw [hkind] at hguid
      exact absurd hguid.symm (UefiGuids.distinct_iff.mp g.distinct).2.2
  smbios := by
    intro ct hct hguid
    obtain rfl := List.mem_singleton.mp hct
    cases hkind : e.fields.is64 with
    | false => rfl
    | true =>
      rw [hkind] at hguid
      exact absurd hguid (UefiGuids.distinct_iff.mp g.distinct).2.2
  placed := by
    intro ct hct _
    obtain rfl := List.mem_singleton.mp hct
    rw [SmbiosEntryPoint.At, ← e.encode_length]
    exact segment_store m _ _

section System
variable {g : UefiGuids}

theorem UefiCall.printsSmbios_acpi (rsdp : UInt64) :
    (if rsdp ≠ 0 then UefiCall.printAcpi rsdp else .noRsdp).printsSmbios = pure [] := by
  split
  · rfl
  · rfl

theorem uefiMainSmbios_eq (table : List EfiConfigurationTable) :
    uefiMainSmbios g table =
      if (discover g table).smbiosEntry ≠ 0 then
        printSmbios (discover g table).smbiosEntry.toNat (discover g table).smbiosIs64
      else pure [.notPresent] := by
  have hlast : ∀ c : UefiCall, printCalls [c] = c.printsSmbios := by
    intro c
    apply Probe.eq_of_run
    intro m
    exact Prod.ext (List.append_nil _) (List.append_nil _)
  have hsilent : ∀ (c : UefiCall) (cs : List UefiCall), c.printsSmbios = pure [] →
      printCalls (c :: cs) = printCalls cs := by
    intro c cs hc
    rw [printCalls, hc, Probe.pure_bind]
    exact Probe.eq_of_run fun m => Prod.ext rfl (List.append_nil _)
  rw [uefiMainSmbios, uefiMain, hsilent _ _ rfl, hsilent _ _ rfl,
    hsilent _ _ (UefiCall.printsSmbios_acpi _), hlast]
  split
  · rfl
  · rfl

variable (s : UefiSystem g)

/-- The application prints the entry point of `ct`, and looks nowhere else. -/
structure PrintsEntry (ct : EfiConfigurationTable) : Prop where
  lines : (uefiMainSmbios g s.table).val s.memory =
    .title :: (s.entryPoint ct).fields.lines true ++ [.blank]
  reads : (uefiMainSmbios g s.table).Always
    (ReadsWithin ct.vendorTable.toNat (ct.vendorTable.toNat + (s.entryPoint ct).length)) s.memory
  damage : ∀ q b, ct.vendorTable.toNat ≤ q →
    q < ct.vendorTable.toNat + (s.entryPoint ct).length →
    q ≠ ct.vendorTable.toNat + (s.entryPoint ct).lengthPlace → b ≠ s.memory q → ∃ rest,
      (uefiMainSmbios g s.table).val (setByte s.memory q b) =
        .title :: .checksum (s.entryPoint ct).fields.is64 false :: rest

/-- The three cases of a run. -/
structure SmbiosShown : Prop where
  smbios3 : (∃ ct ∈ s.table, ct.vendorGuid = g.smbios3) →
    ∃ ct ∈ s.table, ct.vendorGuid = g.smbios3 ∧ PrintsEntry s ct
  smbios : (∀ ct ∈ s.table, ct.vendorGuid ≠ g.smbios3) →
    (∃ ct ∈ s.table, ct.vendorGuid = g.smbios) →
    ∃ ct ∈ s.table, ct.vendorGuid = g.smbios ∧ PrintsEntry s ct
  absent : (∀ ct ∈ s.table, ct.vendorGuid ≠ g.smbios3 ∧ ct.vendorGuid ≠ g.smbios) →
    (uefiMainSmbios g s.table).run s.memory = ([.notPresent], [])

variable {s}

theorem printsEntry {ct : EfiConfigurationTable} (hct : ct ∈ s.table)
    (hguid : ct.vendorGuid = g.smbios3 ∨ ct.vendorGuid = g.smbios)
    (hentry : (discover g s.table).smbiosEntry = ct.vendorTable)
    (his64 : (discover g s.table).smbiosIs64 = (s.entryPoint ct).fields.is64) :
    PrintsEntry s ct := by
  have hplaced := s.placed ct hct hguid
  have hrun : uefiMainSmbios g s.table =
      printSmbios ct.vendorTable.toNat (s.entryPoint ct).fields.is64 := by
    rw [uefiMainSmbios_eq, hentry, his64, if_pos (s.nonNull ct hct)]
  refine ⟨?_, ?_, ?_⟩
  · rw [hrun]
    exact hplaced.printSmbios_val
  · rw [hrun]
    exact hplaced.printSmbios_reads
  · intro q b hlo hhi hq hb
    rw [hrun]
    exact hplaced.printSmbios_setByte hlo hhi hq hb

theorem smbiosShown (s : UefiSystem g) : SmbiosShown s := by
  have hchosen : Chosen g.smbios3 g.smbios s.table (discover g s.table).smbiosEntry := by
    rw [(discover_keeps s.nonNull).smbiosEntry]
    exact chosen_preferred g.smbios3 g.smbios
  have his64 := smbiosIs64_iff (g := g) s.nonNull
  refine ⟨?_, ?_, ?_⟩
  · intro hsome
    obtain ⟨ct, hct, hguid, hentry⟩ := hchosen.ofFirst hsome
    refine ⟨ct, hct, hguid, printsEntry hct (Or.inl hguid) hentry ?_⟩
    rw [s.smbios3 ct hct hguid]
    exact his64.mpr ⟨ct, hct, hguid, hentry⟩
  · intro hnone hsome
    obtain ⟨ct, hct, hguid, hentry⟩ := hchosen.ofSecond hnone hsome
    refine ⟨ct, hct, hguid, printsEntry hct (Or.inr hguid) hentry ?_⟩
    rw [s.smbios ct hct hguid]
    apply Bool.eq_false_iff.mpr
    intro htrue
    obtain ⟨ct', hct', hguid', -⟩ := his64.mp htrue
    exact hnone ct' hct' hguid'
  · intro hnone
    rw [uefiMainSmbios_eq, hchosen.null hnone, if_neg (not_not.mpr rfl)]
    rfl

theorem installed_prints (e : SmbiosEntryPoint) (m : Mem) {address : UInt64}
    (hnonNull : address ≠ 0) :
    ∃ ct ∈ (e.installed g m address hnonNull).table,
      PrintsEntry (e.installed g m address hnonNull) ct := by
  have hshown := smbiosShown (e.installed g m address hnonNull)
  have hct : (⟨cond e.fields.is64 g.smbios3 g.smbios, address⟩ : EfiConfigurationTable) ∈
      (e.installed g m address hnonNull).table := List.mem_singleton.mpr rfl
  cases hkind : e.fields.is64 with
  | true =>
    rw [hkind] at hct
    obtain ⟨ct, hmem, -, hprints⟩ := hshown.smbios3 ⟨_, hct, rfl⟩
    exact ⟨ct, hmem, hprints⟩
  | false =>
    rw [hkind] at hct
    have hnone : ∀ ct ∈ (e.installed g m address hnonNull).table, ct.vendorGuid ≠ g.smbios3 := by
      intro ct hmem hguid
      have htrue := (e.installed g m address hnonNull).smbios3 ct hmem hguid
      exact Bool.noConfusion (htrue.symm.trans hkind)
    obtain ⟨ct, hmem, -, hprints⟩ := hshown.smbios hnone ⟨_, hct, rfl⟩
    exact ⟨ct, hmem, hprints⟩

/-- What the application prints about SMBIOS is the preferred entry point of the system,
and every entry point that is installed anywhere is printed as it is. -/
theorem uefiMainSmbios_shows (g : UefiGuids) :
    (∀ s : UefiSystem g, SmbiosShown s) ∧
      ∀ (e : SmbiosEntryPoint) (m : Mem) (address : UInt64) (hnonNull : address ≠ 0),
        (uefiMainSmbios g (e.installed g m address hnonNull).table).val
          (store m address.toNat e.encode) = .title :: e.fields.lines true ++ [.blank] := by
  refine ⟨smbiosShown, ?_⟩
  intro e m address hnonNull
  obtain ⟨_, _, hprints⟩ := installed_prints e m hnonNull
  exact hprints.lines

end System
end HwMon
