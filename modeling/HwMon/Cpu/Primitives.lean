import HwMon.Cpu.Gating
import HwMon.Lib.X64Bytes

/-!
# The procedures of `primitives.asm`

The instructions of the four procedures on the registers and the memory of a
processor. Each procedure does what its C prototype says: it returns to its
caller with the nonvolatile registers as they were, writes to memory only what
it was given a pointer to and its own stack slot, and faults only where the
instruction it wraps does.
-/

namespace HwMon
set_option autoImplicit false

/-- What the wrapped instructions answer. The time-stamp counter has a value for each
time it is read. -/
structure PrimCpu where
  answers : Cpu
  tsc : Nat → UInt64
  aux : UInt32

namespace PrimCpu
variable (c : PrimCpu)

/-- `CR4.OSXSAVE`, as leaf 1 reports it. -/
def osxsave : Bool := bit (c.answers (.cpuid 1 0)).ecx 27

def rdtscp : Bool := bit (c.answers (.cpuid 0x80000001 0)).edx 27

end PrimCpu

/-- A processor that has read its time-stamp counter some times. -/
abbrev PrimState := X64State Nat

/-- A write to the low half of a register clears its high half. -/
def X64State.write32 {σ : Type} (s : X64State σ) (r : Reg64) (v : UInt32) : X64State σ :=
  s.write r v.toUInt64

/-- A write by an instruction that sets the flags after its result. -/
def X64State.writeFlags {σ : Type} (s : X64State σ) (r : Reg64) (v : UInt64) : X64State σ :=
  { s.write r v with zf := v == 0 }

/-- A result in EDX:EAX. -/
def X64State.writeHalves {σ : Type} (s : X64State σ) (v : UInt64) : X64State σ :=
  (s.write32 .rax v.toUInt32).write32 .rdx (v >>> 32).toUInt32

section Writes
variable {σ : Type} (s : X64State σ) {r r' : Reg64}

@[simp] theorem writeFlags_same (v : UInt64) : (s.writeFlags r v).reg r = v := write_same s r v

theorem writeFlags_other (v : UInt64) (h : r' ≠ r) : (s.writeFlags r v).reg r' = s.reg r' :=
  write_other s v h

@[simp] theorem write32_same (v : UInt32) : (s.write32 r v).reg r = v.toUInt64 :=
  write_same s r v.toUInt64

theorem write32_other (v : UInt32) (h : r' ≠ r) : (s.write32 r v).reg r' = s.reg r' :=
  write_other s v.toUInt64 h

theorem writeHalves_rax (v : UInt64) :
    (s.writeHalves v).reg .rax = v.toUInt32.toUInt64 := by
  rw [X64State.writeHalves, write32_other _ _ (by decide), write32_same]

theorem writeHalves_rdx (v : UInt64) :
    (s.writeHalves v).reg .rdx = (v >>> 32).toUInt32.toUInt64 :=
  write32_same _ _

theorem writeHalves_other (v : UInt64) (hax : r ≠ .rax) (hdx : r ≠ .rdx) :
    (s.writeHalves v).reg r = s.reg r := by
  rw [X64State.writeHalves, write32_other _ _ hdx, write32_other _ _ hax]

end Writes

inductive PrimOp where
  | base (o : Op)
  | mov32 (dst src : Reg64)
  | cpuid
  | rdtsc
  | rdtscp
  | xgetbv
  | store32 (addr : Reg64) (disp : UInt64) (src : Reg64)
  | shl (r : Reg64) (count : UInt64)
  | or (dst src : Reg64)
  | test (r : Reg64)
  deriving DecidableEq, Repr

def readTsc (c : PrimCpu) (s : PrimState) : PrimState :=
  { s.writeHalves (c.tsc s.outside) with outside := s.outside + 1 }

/-- The state after an instruction; none if it faults. -/
def PrimOp.apply (c : PrimCpu) (s : PrimState) : PrimOp → Option PrimState
  | .base o => some (o.apply s)
  | .mov32 dst src => some (s.write32 dst (s.reg src).toUInt32)
  | .cpuid =>
    let r := c.answers (.cpuid (s.reg .rax).toUInt32 (s.reg .rcx).toUInt32)
    some ((((s.write32 .rax r.eax).write32 .rbx r.ebx).write32 .rcx r.ecx).write32 .rdx r.edx)
  | .rdtsc => some (readTsc c s)
  | .rdtscp => if c.rdtscp = true then some ((readTsc c s).write32 .rcx c.aux) else none
  | .xgetbv =>
    if c.osxsave = true ∧ (s.reg .rcx).toUInt32 = 0 then
      some (s.writeHalves (c.answers (.xgetbv 0)))
    else none
  | .store32 addr disp src =>
    some { s with
      mem := storeBytes s.mem (s.reg addr + disp) (leBytes 4 (s.reg src).toUInt32.toNat) }
  | .shl r count => some (s.writeFlags r (s.reg r <<< count))
  | .or dst src => some (s.writeFlags dst (s.reg dst ||| s.reg src))
  | .test r => some { s with zf := s.reg r &&& s.reg r == 0 }

inductive PrimInstr where
  | op (o : PrimOp)
  /-- `jz` to the label behind the skipped instructions. -/
  | jz (skipped : List PrimOp)
  | ret
  deriving DecidableEq, Repr

def PrimOp.applyAll (c : PrimCpu) (ops : List PrimOp) (s : PrimState) : Option PrimState :=
  ops.foldlM (PrimOp.apply c) s

/-- Where a procedure returns to, and the state in which it returns. -/
def runProc (c : PrimCpu) : List PrimInstr → PrimState → Option (UInt64 × PrimState)
  | [], _ => none
  | .op o :: is, s => (o.apply c s).bind (runProc c is)
  | .jz skipped :: is, s =>
    if s.zf = true then runProc c is s else (PrimOp.applyAll c skipped s).bind (runProc c is)
  | .ret :: _, s => some (loadQword s.mem (s.reg .rsp), s.write .rsp (s.reg .rsp + 8))

section Steps
variable {c : PrimCpu} {is : List PrimInstr} {s : PrimState}

theorem runProc_op (o : PrimOp) : runProc c (.op o :: is) s = (o.apply c s).bind (runProc c is) :=
  rfl

theorem runProc_jz (skipped : List PrimOp) : runProc c (.jz skipped :: is) s =
    if s.zf = true then runProc c is s else (PrimOp.applyAll c skipped s).bind (runProc c is) := rfl

end Steps

/-- `cpuid_asm` -/
def cpuidAsmProc : List PrimInstr :=
  [.op (.base (.push .rbx)),
    .op (.base (.mov .r10 .rcx)),
    .op (.mov32 .rax .rdx),
    .op (.mov32 .rcx .r8),
    .op .cpuid,
    .op (.store32 .r10 0 .rax),
    .op (.store32 .r10 4 .rbx),
    .op (.store32 .r10 8 .rcx),
    .op (.store32 .r10 12 .rdx),
    .op (.base (.mov .rax .r10)),
    .op (.base (.pop .rbx)),
    .ret]

/-- `rdtsc_asm` -/
def rdtscAsmProc : List PrimInstr := [.op .rdtsc, .op (.shl .rdx 32), .op (.or .rax .rdx), .ret]

/-- `rdtscp_asm` -/
def rdtscpAsmProc : List PrimInstr :=
  [.op (.base (.mov .r10 .rcx)),
    .op .rdtscp,
    .op (.test .r10),
    .jz [.store32 .r10 0 .rcx],
    .op (.shl .rdx 32),
    .op (.or .rax .rdx),
    .ret]

/-- `xgetbv_asm` -/
def xgetbvAsmProc : List PrimInstr := [.op .xgetbv, .op (.shl .rdx 32), .op (.or .rax .rdx), .ret]

/-- A procedure that was called in `s` has returned in `t`. -/
structure ReturnedFrom (s : PrimState) (target : UInt64) (t : PrimState) : Prop where
  target_eq : target = loadQword s.mem (s.reg .rsp)
  rsp : t.reg .rsp = s.reg .rsp + 8
  kept : ∀ r ∈ nonvolatile, r ≠ .rsp → t.reg r = s.reg r

/-!
## Two halves of a qword
-/

theorem halves_join (v : UInt64) :
    v.toUInt32.toUInt64 ||| (v >>> 32).toUInt32.toUInt64 <<< 32 = v := by
  have hv : v.toNat < 2 ^ 64 := v.toNat_lt
  have hlow : v.toNat % 2 ^ 32 < 2 ^ 32 := Nat.mod_lt _ (by decide)
  have hhigh : v.toNat / 2 ^ 32 < 2 ^ 32 := Nat.div_lt_of_lt_mul hv
  have hcount : (32 : UInt64).toNat % 64 = 32 := rfl
  have hfits : v.toNat / 2 ^ 32 * 2 ^ 32 < 2 ^ 64 := by omega
  apply UInt64.toNat_inj.mp
  rw [UInt64.toNat_or, UInt64.toNat_shiftLeft, UInt32.toNat_toUInt64, UInt32.toNat_toUInt64,
    UInt64.toNat_toUInt32, UInt64.toNat_toUInt32, UInt64.toNat_shiftRight, hcount,
    Nat.shiftLeft_eq, Nat.shiftRight_eq_div_pow, Nat.mod_eq_of_lt hhigh,
    Nat.mod_eq_of_lt hfits, Nat.or_comm, or_eq_add (Nat.dvd_mul_left _ _) hlow]
  omega

/-!
## Each procedure
-/

section Procedures
variable {c : PrimCpu} {s : PrimState}

/-- What RDTSC and XGETBV leave is put together by the two instructions behind them. -/
theorem join_run (v : UInt64) {t : PrimState} (hax : t.reg .rax = v.toUInt32.toUInt64)
    (hdx : t.reg .rdx = (v >>> 32).toUInt32.toUInt64) :
    ∃ u, runProc c [.op (.shl .rdx 32), .op (.or .rax .rdx), .ret] t =
        some (loadQword t.mem (t.reg .rsp), u) ∧
      u.reg .rax = v ∧ u.reg .rsp = t.reg .rsp + 8 ∧
      (∀ r, r ≠ .rax → r ≠ .rdx → r ≠ .rsp → u.reg r = t.reg r) ∧
      u.mem = t.mem ∧ u.outside = t.outside := by
  have hshift : (t.writeFlags .rdx (t.reg .rdx <<< 32)).reg .rax |||
      (t.writeFlags .rdx (t.reg .rdx <<< 32)).reg .rdx = v := by
    rw [writeFlags_same, writeFlags_other _ _ (by decide), hax, hdx, halves_join]
  refine ⟨((t.writeFlags .rdx (t.reg .rdx <<< 32)).writeFlags .rax v).write .rsp (t.reg .rsp + 8),
    ?_, ?_, write_same _ _ _, ?_, rfl, rfl⟩
  · rw [← hshift]
    rfl
  · rw [write_other _ _ (by decide), writeFlags_same]
  · intro r hax hdx hsp
    rw [write_other _ _ hsp, writeFlags_other _ _ hax, writeFlags_other _ _ hdx]

theorem volatile_ne : ∀ r ∈ nonvolatile,
    r ≠ .rax ∧ r ≠ .rcx ∧ r ≠ .rdx ∧ r ≠ .r10 := by decide

theorem readTsc_reg : (readTsc c s).reg = (s.writeHalves (c.tsc s.outside)).reg := rfl

theorem readTsc_other {r : Reg64} (hax : r ≠ .rax) (hdx : r ≠ .rdx) :
    (readTsc c s).reg r = s.reg r := by
  rw [readTsc_reg, writeHalves_other s _ hax hdx]

variable (c s) in
/-- `rdtsc_asm` returns the counter. -/
theorem rdtsc_returns : ∃ target t, runProc c rdtscAsmProc s = some (target, t) ∧
    ReturnedFrom s target t ∧ t.reg .rax = c.tsc s.outside ∧ t.mem = s.mem ∧
    t.outside = s.outside + 1 := by
  obtain ⟨t, hrun, hax, hsp, hother, hmem, houtside⟩ :=
    join_run (c := c) (c.tsc s.outside) (t := readTsc c s) (writeHalves_rax s _)
      (writeHalves_rdx s _)
  rw [readTsc_other (by decide) (by decide)] at hrun hsp
  refine ⟨_, t, ?_, ⟨rfl, hsp, ?_⟩, hax, hmem, houtside⟩
  · rw [rdtscAsmProc, runProc_op, PrimOp.apply, Option.bind_some]
    exact hrun
  · intro r hr hrsp
    obtain ⟨hax, -, hdx, -⟩ := volatile_ne r hr
    rw [hother r hax hdx hrsp, readTsc_other hax hdx]

/-- `xgetbv_asm` returns the register where the instruction is allowed. -/
theorem xgetbv_returns (hos : c.osxsave = true) (hindex : (s.reg .rcx).toUInt32 = 0) :
    ∃ target t, runProc c xgetbvAsmProc s = some (target, t) ∧ ReturnedFrom s target t ∧
      t.reg .rax = c.answers (.xgetbv 0) ∧ t.mem = s.mem := by
  obtain ⟨t, hrun, hax, hsp, hother, hmem, -⟩ :=
    join_run (c := c) (c.answers (.xgetbv 0)) (writeHalves_rax s _) (writeHalves_rdx s _)
  rw [writeHalves_other s _ (by decide) (by decide)] at hrun hsp
  refine ⟨_, t, ?_, ⟨rfl, hsp, ?_⟩, hax, hmem⟩
  · rw [xgetbvAsmProc, runProc_op, PrimOp.apply, if_pos ⟨hos, hindex⟩]
    exact hrun
  · intro r hr hrsp
    obtain ⟨hax, -, hdx, -⟩ := volatile_ne r hr
    rw [hother r hax hdx hrsp, writeHalves_other s _ hax hdx]

/-- `xgetbv_asm` faults where the instruction does. -/
theorem xgetbv_faults (h : ¬(c.osxsave = true ∧ (s.reg .rcx).toUInt32 = 0)) :
    runProc c xgetbvAsmProc s = none := by
  rw [xgetbvAsmProc, runProc_op, PrimOp.apply, if_neg h]
  rfl

/-- The state of `rdtscp_asm` before the jump. -/
def beforeAux (c : PrimCpu) (s : PrimState) : PrimState :=
  { (readTsc c (s.write .r10 (s.reg .rcx))).write32 .rcx c.aux with zf := s.reg .rcx == 0 }

theorem beforeAux_reg : (beforeAux c s).reg =
    ((readTsc c (s.write .r10 (s.reg .rcx))).write32 .rcx c.aux).reg := rfl

theorem beforeAux_rax : (beforeAux c s).reg .rax = (c.tsc s.outside).toUInt32.toUInt64 := by
  rw [beforeAux_reg, write32_other _ _ (by decide), readTsc_reg, writeHalves_rax]
  rfl

theorem beforeAux_rdx : (beforeAux c s).reg .rdx = (c.tsc s.outside >>> 32).toUInt32.toUInt64 := by
  rw [beforeAux_reg, write32_other _ _ (by decide), readTsc_reg, writeHalves_rdx]
  rfl

theorem beforeAux_rcx : (beforeAux c s).reg .rcx = c.aux.toUInt64 := by
  rw [beforeAux_reg, write32_same]

theorem beforeAux_other {r : Reg64} (hax : r ≠ .rax) (hdx : r ≠ .rdx) (hcx : r ≠ .rcx) :
    (beforeAux c s).reg r = (s.write .r10 (s.reg .rcx)).reg r := by
  rw [beforeAux_reg, write32_other _ _ hcx, readTsc_other hax hdx]

theorem beforeAux_r10 : (beforeAux c s).reg .r10 = s.reg .rcx := by
  rw [beforeAux_other (by decide) (by decide) (by decide), write_same]

theorem rdtscp_run (h : c.rdtscp = true) : runProc c rdtscpAsmProc s =
    runProc c [.jz [.store32 .r10 0 .rcx], .op (.shl .rdx 32), .op (.or .rax .rdx), .ret]
      (beforeAux c s) := by
  have hr10 : ((readTsc c (s.write .r10 (s.reg .rcx))).write32 .rcx c.aux).reg .r10 =
      s.reg .rcx := by
    rw [write32_other _ _ (by decide), readTsc_other (by decide) (by decide), write_same]
  simp only [rdtscpAsmProc, runProc_op, PrimOp.apply, Op.apply, if_pos h, Option.bind_some, hr10,
    UInt64.and_self]
  rfl

/-- The store of `rdtscp_asm`, if there is a pointer. -/
def auxStored (c : PrimCpu) (s : PrimState) : UInt64 → UInt8 :=
  if s.reg .rcx = 0 then s.mem else storeBytes s.mem (s.reg .rcx) (leBytes 4 c.aux.toNat)

theorem auxStored_run (is : List PrimInstr) :
    runProc c (.jz [.store32 .r10 0 .rcx] :: is) (beforeAux c s) =
      runProc c is { beforeAux c s with mem := auxStored c s } := by
  have hzf : (beforeAux c s).zf = (s.reg .rcx == 0) := rfl
  by_cases hnull : s.reg .rcx = 0
  · rw [runProc_jz, hzf, if_pos (beq_iff_eq.mpr hnull), auxStored, if_pos hnull]
    rfl
  · have hop : PrimOp.applyAll c [.store32 .r10 0 .rcx] (beforeAux c s) =
        some { beforeAux c s with mem := storeBytes s.mem (s.reg .rcx) (leBytes 4 c.aux.toNat) } := by
      rw [PrimOp.applyAll, List.foldlM_cons, PrimOp.apply, beforeAux_r10, beforeAux_rcx,
        UInt64.add_zero, UInt32.toUInt32_toUInt64]
      rfl
    rw [runProc_jz, hzf, if_neg fun h => hnull (beq_iff_eq.mp h), hop, auxStored, if_neg hnull,
      Option.bind_some]

theorem auxStored_return (hroom : s.reg .rcx = 0 ∨ Apart (s.reg .rcx) 4 (s.reg .rsp) 8) :
    loadQword (auxStored c s) (s.reg .rsp) = loadQword s.mem (s.reg .rsp) := by
  unfold auxStored
  by_cases hnull : s.reg .rcx = 0
  · rw [if_pos hnull]
  · rw [if_neg hnull]
    have hapart := hroom.resolve_left hnull
    rw [← leBytes_length 4 c.aux.toNat] at hapart
    exact loadQword_congr fun i hi => storeBytes_apart hapart hi

/-- `rdtscp_asm` returns the counter, and the auxiliary value through a pointer that is
not NULL. -/
theorem rdtscp_returns (h : c.rdtscp = true)
    (hroom : s.reg .rcx = 0 ∨ Apart (s.reg .rcx) 4 (s.reg .rsp) 8) :
    ∃ target t, runProc c rdtscpAsmProc s = some (target, t) ∧ ReturnedFrom s target t ∧
      t.reg .rax = c.tsc s.outside ∧ t.mem = auxStored c s ∧ t.outside = s.outside + 1 := by
  obtain ⟨t, hrun, hax, hsp, hother, hmem, houtside⟩ :=
    join_run (c := c) (c.tsc s.outside) (t := { beforeAux c s with mem := auxStored c s })
      beforeAux_rax beforeAux_rdx
  have hsame : (beforeAux c s).reg .rsp = s.reg .rsp := by
    rw [beforeAux_other (by decide) (by decide) (by decide), write_other _ _ (by decide)]
  simp only [hsame, auxStored_return hroom] at hrun hsp
  refine ⟨_, t, ?_, ⟨rfl, hsp, ?_⟩, hax, hmem, houtside⟩
  · rw [rdtscp_run h, auxStored_run]
    exact hrun
  · intro r hr hrsp
    obtain ⟨hax, hcx, hdx, hr10⟩ := volatile_ne r hr
    rw [hother r hax hdx hrsp]
    exact (beforeAux_other hax hdx hcx).trans (write_other _ _ hr10)

theorem rdtscp_faults (h : ¬c.rdtscp = true) : runProc c rdtscpAsmProc s = none := by
  rw [rdtscpAsmProc, runProc_op, PrimOp.apply, Option.bind_some, runProc_op, PrimOp.apply, if_neg h]
  rfl

variable (c s) in
/-- The answer that `cpuid_asm` asks for: the high halves of the arguments do not matter. -/
def cpuidAsked : CpuidResult :=
  c.answers (.cpuid (s.reg .rdx).toUInt32 (s.reg .r8).toUInt32)

/-- The state of `cpuid_asm` before the instruction. -/
def beforeCpuid (s : PrimState) : PrimState :=
  (((Op.push .rbx).apply s |>.write .r10 (s.reg .rcx)).write32 .rax (s.reg .rdx).toUInt32).write32
    .rcx (s.reg .r8).toUInt32

/-- The state of `cpuid_asm` behind the instruction. -/
def afterCpuid (c : PrimCpu) (s : PrimState) : PrimState :=
  ((((beforeCpuid s).write32 .rax (cpuidAsked c s).eax).write32 .rbx (cpuidAsked c s).ebx).write32
    .rcx (cpuidAsked c s).ecx).write32 .rdx (cpuidAsked c s).edx

theorem push_other {r : Reg64} (h : r ≠ .rsp) : ((Op.push .rbx).apply s).reg r = s.reg r :=
  write_other s (s.reg .rsp - 8) h

theorem beforeCpuid_other {r : Reg64} (hax : r ≠ .rax) (hcx : r ≠ .rcx) (hr10 : r ≠ .r10) :
    (beforeCpuid s).reg r = ((Op.push .rbx).apply s).reg r := by
  rw [beforeCpuid, write32_other _ _ hcx, write32_other _ _ hax, write_other _ _ hr10]

theorem afterCpuid_other {r : Reg64} (hax : r ≠ .rax) (hbx : r ≠ .rbx) (hcx : r ≠ .rcx)
    (hdx : r ≠ .rdx) : (afterCpuid c s).reg r = (beforeCpuid s).reg r := by
  rw [afterCpuid, write32_other _ _ hdx, write32_other _ _ hcx, write32_other _ _ hbx,
    write32_other _ _ hax]

theorem afterCpuid_r10 : (afterCpuid c s).reg .r10 = s.reg .rcx := by
  rw [afterCpuid_other (by decide) (by decide) (by decide) (by decide), beforeCpuid,
    write32_other _ _ (by decide), write32_other _ _ (by decide), write_same]

theorem afterCpuid_rsp : (afterCpuid c s).reg .rsp = s.reg .rsp - 8 := by
  rw [afterCpuid_other (by decide) (by decide) (by decide) (by decide),
    beforeCpuid_other (by decide) (by decide) (by decide)]
  exact write_same s .rsp (s.reg .rsp - 8)

/-- Up to the stores. -/
theorem cpuid_run (is : List PrimInstr) : runProc c (.op (.base (.push .rbx)) ::
    .op (.base (.mov .r10 .rcx)) :: .op (.mov32 .rax .rdx) :: .op (.mov32 .rcx .r8) ::
    .op .cpuid :: is) s = runProc c is (afterCpuid c s) := by
  have hrax : (beforeCpuid s).reg .rax = (s.reg .rdx).toUInt32.toUInt64 := by
    rw [beforeCpuid, write32_other _ _ (by decide), write32_same]
  have hrcx : (beforeCpuid s).reg .rcx = (s.reg .r8).toUInt32.toUInt64 := by
    rw [beforeCpuid, write32_same]
  have hbefore : runProc c (.op (.base (.push .rbx)) :: .op (.base (.mov .r10 .rcx)) ::
      .op (.mov32 .rax .rdx) :: .op (.mov32 .rcx .r8) :: .op .cpuid :: is) s =
        runProc c (.op .cpuid :: is) (beforeCpuid s) := by
    rfl
  rw [hbefore, runProc_op, PrimOp.apply, hrax, hrcx, UInt32.toUInt32_toUInt64,
    UInt32.toUInt32_toUInt64, Option.bind_some]
  rfl

theorem afterCpuid_answer : (afterCpuid c s).reg .rax = (cpuidAsked c s).eax.toUInt64 ∧
    (afterCpuid c s).reg .rbx = (cpuidAsked c s).ebx.toUInt64 ∧
    (afterCpuid c s).reg .rcx = (cpuidAsked c s).ecx.toUInt64 ∧
    (afterCpuid c s).reg .rdx = (cpuidAsked c s).edx.toUInt64 := by
  unfold afterCpuid
  refine ⟨?_, ?_, ?_, write32_same _ _⟩
  · rw [write32_other _ _ (by decide), write32_other _ _ (by decide),
      write32_other _ _ (by decide), write32_same]
  · rw [write32_other _ _ (by decide), write32_other _ _ (by decide), write32_same]
  · rw [write32_other _ _ (by decide), write32_same]

/-- Four dwords in a row. -/
theorem storeBytes_answer (m : UInt64 → UInt8) (a : UInt64) (r : CpuidResult) :
    storeBytes (storeBytes (storeBytes (storeBytes m a (leBytes 4 r.eax.toNat)) (a + 4)
      (leBytes 4 r.ebx.toNat)) (a + 8) (leBytes 4 r.ecx.toNat)) (a + 12)
      (leBytes 4 r.edx.toNat) = storeBytes m a r.bytes := by
  have htwo := storeBytes_append (m := m) (a := a) (l := leBytes 4 r.eax.toNat)
    (r := leBytes 4 r.ebx.toNat) (by simp only [leBytes_length]; decide)
  have hthree := storeBytes_append (m := m) (a := a)
    (l := leBytes 4 r.eax.toNat ++ leBytes 4 r.ebx.toNat) (r := leBytes 4 r.ecx.toNat)
    (by simp only [List.length_append, leBytes_length]; decide)
  have hfour := storeBytes_append (m := m) (a := a)
    (l := leBytes 4 r.eax.toNat ++ leBytes 4 r.ebx.toNat ++ leBytes 4 r.ecx.toNat)
    (r := leBytes 4 r.edx.toNat) (by simp only [List.length_append, leBytes_length]; decide)
  simp only [List.length_append, leBytes_length] at htwo hthree hfour
  rw [CpuidResult.bytes, ← hfour, ← hthree, ← htwo]
  rfl

/-- What `cpuid_asm` leaves in memory: its stack slot and the answer. -/
def cpuidStored (c : PrimCpu) (s : PrimState) : UInt64 → UInt8 :=
  storeBytes (storeQword s.mem (s.reg .rsp - 8) (s.reg .rbx)) (s.reg .rcx) (cpuidAsked c s).bytes

theorem cpuidStored_run (is : List PrimInstr) : runProc c (.op (.store32 .r10 0 .rax) ::
    .op (.store32 .r10 4 .rbx) :: .op (.store32 .r10 8 .rcx) :: .op (.store32 .r10 12 .rdx) :: is)
      (afterCpuid c s) = runProc c is { afterCpuid c s with mem := cpuidStored c s } := by
  obtain ⟨hrax, hrbx, hrcx, hrdx⟩ := afterCpuid_answer (c := c) (s := s)
  have hmem : (afterCpuid c s).mem = storeQword s.mem (s.reg .rsp - 8) (s.reg .rbx) := rfl
  simp only [runProc_op, PrimOp.apply, Option.bind_some, afterCpuid_r10, hrax, hrbx, hrcx, hrdx,
    UInt64.add_zero, UInt32.toUInt32_toUInt64, storeBytes_answer, hmem]
  rfl

/-- The state of `cpuid_asm` before it returns. -/
def beforeRet (c : PrimCpu) (s : PrimState) : PrimState :=
  (Op.pop .rbx).apply ((Op.mov .rax .r10).apply { afterCpuid c s with mem := cpuidStored c s })

theorem beforeRet_reg : (beforeRet c s).reg =
    ((((afterCpuid c s).write .rax ((afterCpuid c s).reg .r10)).write .rsp
      (((afterCpuid c s).write .rax ((afterCpuid c s).reg .r10)).reg .rsp + 8)).write .rbx
      (loadQword (cpuidStored c s)
        (((afterCpuid c s).write .rax ((afterCpuid c s).reg .r10)).reg .rsp))).reg := rfl

theorem beforeRet_rsp : (beforeRet c s).reg .rsp = s.reg .rsp := by
  rw [beforeRet_reg, write_other _ _ (by decide), write_same, write_other _ _ (by decide),
    afterCpuid_rsp, UInt64.sub_add_cancel]

theorem beforeRet_rax : (beforeRet c s).reg .rax = s.reg .rcx := by
  rw [beforeRet_reg, write_other _ _ (by decide), write_other _ _ (by decide), write_same,
    afterCpuid_r10]

theorem beforeRet_rbx :
    (beforeRet c s).reg .rbx = loadQword (cpuidStored c s) (s.reg .rsp - 8) := by
  rw [beforeRet_reg, write_same, write_other _ _ (by decide), afterCpuid_rsp]

theorem beforeRet_other {r : Reg64} (h : r ∈ nonvolatile) (hsp : r ≠ .rsp) (hbx : r ≠ .rbx) :
    (beforeRet c s).reg r = s.reg r := by
  obtain ⟨hax, hcx, hdx, hr10⟩ := volatile_ne r h
  rw [beforeRet_reg, write_other _ _ hbx, write_other _ _ hsp, write_other _ _ hax,
    afterCpuid_other hax hbx hcx hdx, beforeCpuid_other hax hcx hr10, push_other hsp]

section Room
variable (hroom : Apart (s.reg .rcx) 16 (s.reg .rsp - 8) 16)
include hroom

theorem cpuidStored_slot {i : Nat} (hi : i < 16) :
    cpuidStored c s (s.reg .rsp - 8 + UInt64.ofNat i) =
      storeQword s.mem (s.reg .rsp - 8) (s.reg .rbx) (s.reg .rsp - 8 + UInt64.ofNat i) := by
  rw [← CpuidResult.bytes_length (cpuidAsked c s)] at hroom
  exact storeBytes_apart hroom (by rw [CpuidResult.bytes_length]; exact hi)

theorem cpuidStored_rbx : loadQword (cpuidStored c s) (s.reg .rsp - 8) = s.reg .rbx := by
  have hload := loadQword_storeQword s.mem (s.reg .rsp - 8) (s.reg .rbx)
  rw [← hload]
  exact loadQword_congr fun i hi => cpuidStored_slot hroom (by omega)

/-- The return address stands above the slot. -/
theorem cpuidStored_return :
    loadQword (cpuidStored c s) (s.reg .rsp) = loadQword s.mem (s.reg .rsp) := by
  have hrsp : s.reg .rsp = s.reg .rsp - 8 + 8 := (UInt64.sub_add_cancel _ _).symm
  have hself : (s.reg .rsp - 8 - (s.reg .rsp - 8)).toNat = 0 := by
    rw [UInt64.sub_self]
    rfl
  have hdist : (s.reg .rsp - 8 + 8 - (s.reg .rsp - 8)).toNat =
      (s.reg .rsp - 8 - (s.reg .rsp - 8)).toNat + 8 := add_ofNat_sub_toNat (i := 8) (by omega)
  rw [← hrsp, hself] at hdist
  rw [← loadQword_storeQword_of_apart (a := s.reg .rsp - 8) (v := s.reg .rbx) (m := s.mem)
    (by omega) (by omega)]
  apply loadQword_congr
  intro i hi
  have hplace : s.reg .rsp + UInt64.ofNat i = s.reg .rsp - 8 + UInt64.ofNat (8 + i) := by
    rw [UInt64.ofNat_add, ← UInt64.add_assoc]
    exact congrArg (· + UInt64.ofNat i) hrsp
  rw [hplace]
  exact cpuidStored_slot hroom (by omega)

/-- `cpuid_asm` puts the answer where its first argument points to. -/
theorem cpuid_returns : ∃ target t, runProc c cpuidAsmProc s = some (target, t) ∧
    ReturnedFrom s target t ∧ t.reg .rax = s.reg .rcx ∧ t.mem = cpuidStored c s ∧
    t.outside = s.outside := by
  have hrun : runProc c cpuidAsmProc s = runProc c [.op (.base (.mov .rax .r10)),
      .op (.base (.pop .rbx)), .ret] { afterCpuid c s with mem := cpuidStored c s } :=
    (cpuid_run _).trans (cpuidStored_run _)
  have hret : runProc c cpuidAsmProc s = some (loadQword (cpuidStored c s)
      ((beforeRet c s).reg .rsp), (beforeRet c s).write .rsp ((beforeRet c s).reg .rsp + 8)) :=
    hrun
  rw [beforeRet_rsp, cpuidStored_return hroom] at hret
  refine ⟨_, _, hret, ⟨rfl, write_same _ _ _, ?_⟩, ?_, rfl, rfl⟩
  · intro r hr hrsp
    rw [write_other _ _ hrsp]
    by_cases hbx : r = .rbx
    · rw [hbx, beforeRet_rbx, cpuidStored_rbx hroom]
    · exact beforeRet_other hr hrsp hbx
  · rw [write_other _ _ (by decide), beforeRet_rax]

end Room
end Procedures

/-!
## All procedures together
-/

/-- `cpuid_asm` called in `s` has left the answer `r` where it was told to, and nothing else
outside its stack slot. -/
structure CpuidAnswered (c : PrimCpu) (s : PrimState) (r : CpuidResult) (target : UInt64)
    (t : PrimState) : Prop where
  run : runProc c cpuidAsmProc s = some (target, t)
  returned : ReturnedFrom s target t
  pointer : t.reg .rax = s.reg .rcx
  answer : loadBytes t.mem (s.reg .rcx) 16 = r.bytes
  frame : ∀ x, 16 ≤ (x - s.reg .rcx).toNat → 8 ≤ (x - (s.reg .rsp - 8)).toNat →
    t.mem x = s.mem x

/-- A procedure without a memory operand has returned `v`. -/
structure QwordReturned (c : PrimCpu) (is : List PrimInstr) (s : PrimState) (v : UInt64)
    (target : UInt64) (t : PrimState) : Prop where
  run : runProc c is s = some (target, t)
  returned : ReturnedFrom s target t
  result : t.reg .rax = v

/-- What the prototypes of `x86_asm.h` promise, for a call with any registers. -/
structure PrimitivesServe (c : PrimCpu) : Prop where
  cpuid : ∀ s : PrimState, Apart (s.reg .rcx) 16 (s.reg .rsp - 8) 16 →
    ∃ target t, CpuidAnswered c s (cpuidAsked c s) target t
  rdtsc : ∀ s, ∃ target t, QwordReturned c rdtscAsmProc s (c.tsc s.outside) target t ∧
    t.mem = s.mem ∧ t.outside = s.outside + 1
  rdtscp : ∀ s : PrimState, c.rdtscp = true →
    (s.reg .rcx = 0 ∨ Apart (s.reg .rcx) 4 (s.reg .rsp) 8) →
    ∃ target t, QwordReturned c rdtscpAsmProc s (c.tsc s.outside) target t ∧
      t.outside = s.outside + 1 ∧ (s.reg .rcx = 0 → t.mem = s.mem) ∧
      (s.reg .rcx ≠ 0 → loadBytes t.mem (s.reg .rcx) 4 = leBytes 4 c.aux.toNat ∧
        ∀ x, 4 ≤ (x - s.reg .rcx).toNat → t.mem x = s.mem x)
  xgetbv : ∀ s : PrimState, c.osxsave = true → (s.reg .rcx).toUInt32 = 0 →
    ∃ target t, QwordReturned c xgetbvAsmProc s (c.answers (.xgetbv 0)) target t ∧ t.mem = s.mem
  rdtscp_fault : ∀ s, c.rdtscp = false → runProc c rdtscpAsmProc s = none
  xgetbv_fault : ∀ s : PrimState, c.osxsave = false ∨ (s.reg .rcx).toUInt32 ≠ 0 →
    runProc c xgetbvAsmProc s = none

section Together
variable {c : PrimCpu} {s : PrimState}

theorem cpuidStored_answer :
    loadBytes (cpuidStored c s) (s.reg .rcx) 16 = (cpuidAsked c s).bytes := by
  have hlen := CpuidResult.bytes_length (cpuidAsked c s)
  have hload := loadBytes_storeBytes (l := (cpuidAsked c s).bytes)
    (storeQword s.mem (s.reg .rsp - 8) (s.reg .rbx)) (s.reg .rcx) (by omega)
  rwa [hlen] at hload

theorem cpuidStored_frame {x : UInt64} (hout : 16 ≤ (x - s.reg .rcx).toNat)
    (hslot : 8 ≤ (x - (s.reg .rsp - 8)).toNat) : cpuidStored c s x = s.mem x := by
  rw [cpuidStored, storeBytes_other (by rw [CpuidResult.bytes_length]; exact hout), storeQword_eq,
    storeBytes_other (by rw [leBytes_length]; exact hslot)]

theorem cpuid_answered (hroom : Apart (s.reg .rcx) 16 (s.reg .rsp - 8) 16) :
    ∃ target t, CpuidAnswered c s (cpuidAsked c s) target t := by
  obtain ⟨target, t, hrun, hreturned, hax, hmem, -⟩ := cpuid_returns (c := c) hroom
  refine ⟨target, t, hrun, hreturned, hax, ?_, fun x hout hslot => ?_⟩
  · rw [hmem, cpuidStored_answer]
  · rw [hmem, cpuidStored_frame hout hslot]

theorem xgetbv_answered (hos : c.osxsave = true) (hindex : (s.reg .rcx).toUInt32 = 0) :
    ∃ target t, QwordReturned c xgetbvAsmProc s (c.answers (.xgetbv 0)) target t ∧
      t.mem = s.mem := by
  obtain ⟨target, t, hrun, hreturned, hax, hmem⟩ := xgetbv_returns hos hindex
  exact ⟨target, t, ⟨hrun, hreturned, hax⟩, hmem⟩

end Together

/-- A query of the collector is answered by the procedure for it, called with any other
registers and memory. -/
def CpuQuery.Served (c : PrimCpu) : CpuQuery → Prop
  | .cpuid leaf subleaf => ∀ s : PrimState, (s.reg .rdx).toUInt32 = leaf →
    (s.reg .r8).toUInt32 = subleaf → Apart (s.reg .rcx) 16 (s.reg .rsp - 8) 16 →
    ∃ target t, CpuidAnswered c s (c.answers (.cpuid leaf subleaf)) target t
  | .xgetbv index => ∀ s : PrimState, (s.reg .rcx).toUInt32 = index →
    ∃ target t, QwordReturned c xgetbvAsmProc s (c.answers (.xgetbv index)) target t ∧
      t.mem = s.mem
  | _ => True

def ServesCollector (c : PrimCpu) : Prop :=
  ∀ q, .read q ∈ cpuIdCollect.log c.answers → q.Served c

/-- No instruction that `cpu_id_collect` executes faults, and each gives it the answer of
the processor. -/
theorem cpuIdCollect_served (c : PrimCpu) : ServesCollector c := by
  intro q h
  cases q with
  | activeProcessorCount => exact trivial
  | systemProcessorCount => exact trivial
  | cpuid leaf subleaf =>
    intro s hleaf hsubleaf hroom
    rw [← hleaf, ← hsubleaf]
    exact cpuid_answered hroom
  | xgetbv index =>
    -- The collector asks only after leaf 1 has reported OSXSAVE.
    obtain ⟨before, after, hlog⟩ := List.append_of_mem h
    obtain ⟨rfl, -, hos⟩ := cpuIdCollect_permitted before _ after hlog
    intro s hindex
    exact xgetbv_answered hos hindex

end HwMon
