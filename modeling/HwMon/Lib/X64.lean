import HwMon.Lib.Bytes
import Mathlib.Data.List.GetD
import Mathlib.Data.List.Induction
import Mathlib.Logic.Function.Basic

/-!
# Straight-line x64 code around a call

The general-purpose registers, byte memory and the zero flag of a processor, with
the few instructions that an assembly stub uses to save registers, call a function
and restore them. The processor also records the address of every stack slot that the
stub touches. A call follows the Windows convention: the callee keeps the
nonvolatile registers, RSP among them.
-/

namespace HwMon
set_option autoImplicit false

inductive Reg64 where
  | rax | rcx | rdx | rbx | rsp | rbp | rsi | rdi
  | r8 | r9 | r10 | r11 | r12 | r13 | r14 | r15
  deriving DecidableEq, Repr

section Memory

def loadQword (m : UInt64 → UInt8) (a : UInt64) : UInt64 :=
  UInt64.ofNat (leNat ((List.range 8).map fun i => m (a + UInt64.ofNat i)))

def storeQword (m : UInt64 → UInt8) (a v : UInt64) : UInt64 → UInt8 :=
  fun x => if (x - a).toNat < 8 then (leBytes 8 v.toNat).getD (x - a).toNat 0 else m x

/-- The `n` qwords from address `a`. -/
def qwords (m : UInt64 → UInt8) (a : UInt64) : Nat → List UInt64
  | 0 => []
  | n + 1 => loadQword m a :: qwords m (a + 8) n

variable {m : UInt64 → UInt8} {a b v : UInt64}

theorem add_ofNat_sub_toNat {i : Nat} (h : (b - a).toNat + i < 2 ^ 64) :
    (b + UInt64.ofNat i - a).toNat = (b - a).toNat + i := by
  have hshift : b + UInt64.ofNat i - a = (b - a) + UInt64.ofNat i := by
    rw [UInt64.sub_eq_add_neg, UInt64.sub_eq_add_neg, UInt64.add_assoc, UInt64.add_assoc,
      UInt64.add_comm (UInt64.ofNat i)]
  have hi : (UInt64.ofNat i).toNat = i := by
    rw [UInt64.toNat_ofNat', Nat.mod_eq_of_lt (by omega)]
  rw [hshift, UInt64.toNat_add, hi, Nat.mod_eq_of_lt h]

theorem loadQword_storeQword (m : UInt64 → UInt8) (a v : UInt64) :
    loadQword (storeQword m a v) a = v := by
  have hbytes : (List.range 8).map (fun i => storeQword m a v (a + UInt64.ofNat i)) =
      leBytes 8 v.toNat := by
    apply List.ext_getElem
    · rw [List.length_map, List.length_range, leBytes_length]
    · intro i hi hlen
      rw [leBytes_length] at hlen
      have hself : (a - a).toNat = 0 := by
        rw [UInt64.sub_self]
        rfl
      have hindex : (a + UInt64.ofNat i - a).toNat = i := by
        rw [add_ofNat_sub_toNat (by omega), hself, Nat.zero_add]
      rw [List.getElem_map, List.getElem_range, storeQword, hindex, if_pos hlen]
      exact List.getD_eq_getElem _ _ _
  have hv : v.toNat < 256 ^ 8 := v.toNat_lt
  rw [loadQword, hbytes, leNat_leBytes, Nat.mod_eq_of_lt hv, UInt64.ofNat_toNat]

theorem loadQword_storeQword_of_apart (hlow : 8 ≤ (b - a).toNat)
    (hhigh : (b - a).toNat + 8 ≤ 2 ^ 64) : loadQword (storeQword m a v) b = loadQword m b := by
  have hbytes : (List.range 8).map (fun i => storeQword m a v (b + UInt64.ofNat i)) =
      (List.range 8).map fun i => m (b + UInt64.ofNat i) := by
    apply List.map_congr_left
    intro i hi
    have hlt := List.mem_range.mp hi
    rw [storeQword, add_ofNat_sub_toNat (by omega)]
    exact if_neg (by omega)
  rw [loadQword, loadQword, hbytes]

/-- A store below some qwords leaves them alone. -/
theorem qwords_storeQword {n : Nat} (hlow : 8 ≤ (b - a).toNat)
    (hhigh : (b - a).toNat + 8 * n ≤ 2 ^ 64) : qwords (storeQword m a v) b n = qwords m b n := by
  induction n generalizing b with
  | zero => rfl
  | succ n ih =>
    rw [qwords, qwords, loadQword_storeQword_of_apart hlow (by omega)]
    cases n with
    | zero => rfl
    | succ n =>
      have hnext : (b + 8 - a).toNat = (b - a).toNat + 8 := add_ofNat_sub_toNat (i := 8) (by omega)
      rw [ih (by omega) (by omega)]

end Memory

/-- A processor and the state `σ` of everything else. -/
structure X64State (σ : Type) where
  reg : Reg64 → UInt64
  mem : UInt64 → UInt8
  zf : Bool
  /-- Addresses of the stack slots that the code has touched. -/
  touched : List UInt64
  outside : σ

/-- An instruction that does not change the flow of control. -/
inductive Op where
  | push (r : Reg64)
  | pop (r : Reg64)
  | mov (dst src : Reg64)
  | add (r : Reg64) (imm : UInt64)
  | sub (r : Reg64) (imm : UInt64)
  /-- `test` of the low byte of a register with itself. -/
  | testLow (r : Reg64)
  deriving DecidableEq, Repr

/-- An instruction of code that calls functions `φ`, jumps to labels `lab` and leaves by
instructions `ξ`. -/
inductive Instr (φ lab ξ : Type) where
  | op (o : Op)
  | call (f : φ)
  | jnz (l : lab)
  | leave (x : ξ)
  deriving DecidableEq, Repr

section Semantics
variable {σ φ lab ξ : Type}

def X64State.write (s : X64State σ) (r : Reg64) (v : UInt64) : X64State σ :=
  { s with reg := Function.update s.reg r v }

@[simp] theorem write_same (s : X64State σ) (r : Reg64) (v : UInt64) :
    (s.write r v).reg r = v := by
  change Function.update s.reg r v r = v
  rw [Function.update_self]

theorem write_other (s : X64State σ) {r r' : Reg64} (v : UInt64) (h : r' ≠ r) :
    (s.write r v).reg r' = s.reg r' :=
  Function.update_of_ne h _ _

def Op.apply (s : X64State σ) : Op → X64State σ
  | .push r =>
    { s.write .rsp (s.reg .rsp - 8) with
      mem := storeQword s.mem (s.reg .rsp - 8) (s.reg r)
      touched := s.touched ++ [s.reg .rsp - 8] }
  | .pop r =>
    { (s.write .rsp (s.reg .rsp + 8)).write r (loadQword s.mem (s.reg .rsp)) with
      touched := s.touched ++ [s.reg .rsp] }
  | .mov dst src => s.write dst (s.reg src)
  | .add r imm => { s.write r (s.reg r + imm) with zf := s.reg r + imm == 0 }
  | .sub r imm => { s.write r (s.reg r - imm) with zf := s.reg r - imm == 0 }
  | .testLow r => { s with zf := (s.reg r).toUInt8 &&& (s.reg r).toUInt8 == 0 }

def X64State.applyAll (s : X64State σ) (ops : List Op) : X64State σ := ops.foldl Op.apply s

/-- The registers that a callee keeps. -/
def nonvolatile : List Reg64 := [.rbx, .rbp, .rdi, .rsi, .rsp, .r12, .r13, .r14, .r15]

def KeepsNonvolatile (s t : X64State σ) : Prop := ∀ r ∈ nonvolatile, t.reg r = s.reg r

/-- The state `t` in which a callee returns, with the slot of the return address that the
call in `s` has written. -/
def X64State.returnFrom (s t : X64State σ) : X64State σ :=
  { t with touched := s.touched ++ [s.reg .rsp - 8] }

/-- Running code up to the instruction by which it is left; `calls f s t` says that function
`f`, called in `s`, may return in `t`. -/
inductive Exec (code : lab → List (Instr φ lab ξ))
    (calls : φ → X64State σ → X64State σ → Prop) :
    List (Instr φ lab ξ) → X64State σ → ξ × X64State σ → Prop
  | op {o : Op} {is : List (Instr φ lab ξ)} {s : X64State σ} {out : ξ × X64State σ}
      (h : Exec code calls is (o.apply s) out) : Exec code calls (.op o :: is) s out
  | call {f : φ} {is : List (Instr φ lab ξ)} {s t : X64State σ} {out : ξ × X64State σ}
      (hcall : calls f s t) (h : Exec code calls is (s.returnFrom t) out) :
      Exec code calls (.call f :: is) s out
  | jump {l : lab} {is : List (Instr φ lab ξ)} {s : X64State σ} {out : ξ × X64State σ}
      (hz : s.zf = false) (h : Exec code calls (code l) s out) :
      Exec code calls (.jnz l :: is) s out
  | next {l : lab} {is : List (Instr φ lab ξ)} {s : X64State σ} {out : ξ × X64State σ}
      (hz : s.zf = true) (h : Exec code calls is s out) : Exec code calls (.jnz l :: is) s out
  | leave {x : ξ} {is : List (Instr φ lab ξ)} {s : X64State σ} :
      Exec code calls (.leave x :: is) s (x, s)

variable {code : lab → List (Instr φ lab ξ)} {calls : φ → X64State σ → X64State σ → Prop}
  {is : List (Instr φ lab ξ)} {s : X64State σ} {out : ξ × X64State σ}

theorem applyAll_append (s : X64State σ) (ops ops' : List Op) :
    s.applyAll (ops ++ ops') = (s.applyAll ops).applyAll ops' :=
  List.foldl_append

theorem exec_ops (ops : List Op) :
    Exec code calls (ops.map Instr.op ++ is) s out ↔ Exec code calls is (s.applyAll ops) out := by
  induction ops generalizing s with
  | nil => exact Iff.rfl
  | cons o ops ih =>
    refine Iff.trans ?_ (ih (s := o.apply s))
    constructor
    · intro h
      cases h with
      | op h => exact h
    · exact Exec.op

theorem exec_call {f : φ} : Exec code calls (.call f :: is) s out ↔
    ∃ t, calls f s t ∧ Exec code calls is (s.returnFrom t) out := by
  constructor
  · intro h
    cases h with
    | call hcall h => exact ⟨_, hcall, h⟩
  · intro h
    obtain ⟨t, hcall, h⟩ := h
    exact .call hcall h

theorem exec_jnz {l : lab} : Exec code calls (.jnz l :: is) s out ↔
    Exec code calls (if s.zf = true then is else code l) s out := by
  constructor
  · intro h
    cases h with
    | jump hz h =>
      rw [hz]
      exact h
    | next hz h =>
      rw [if_pos hz]
      exact h
  · intro h
    cases hz : s.zf with
    | false =>
      rw [hz] at h
      exact .jump hz h
    | true =>
      rw [if_pos hz] at h
      exact .next hz h

theorem exec_leave {x : ξ} : Exec code calls (.leave x :: is) s out ↔ out = (x, s) := by
  constructor
  · intro h
    cases h with
    | leave => rfl
  · intro h
    subst h
    exact .leave

end Semantics

section Stack
variable {σ : Type} {s : X64State σ} {rs : List Reg64}

/-- Saving some registers: they are in the qwords from the new RSP, the last one first. -/
structure Pushed (rs : List Reg64) (s t : X64State σ) : Prop where
  rsp : t.reg .rsp = s.reg .rsp - UInt64.ofNat (8 * rs.length)
  reg : ∀ r, r ≠ .rsp → t.reg r = s.reg r
  saved : 8 * rs.length ≤ 2 ^ 64 →
    qwords t.mem (t.reg .rsp) rs.length = (rs.map s.reg).reverse
  touched : ∀ a ∈ t.touched, a ∈ s.touched ∨
    ∃ k < rs.length, a = s.reg .rsp - UInt64.ofNat (8 * (k + 1))
  outside : t.outside = s.outside

/-- Restoring some registers from the qwords at RSP, the first one from the lowest. -/
structure Popped (rs : List Reg64) (s t : X64State σ) : Prop where
  rsp : t.reg .rsp = s.reg .rsp + UInt64.ofNat (8 * rs.length)
  restored : rs.map t.reg = qwords s.mem (s.reg .rsp) rs.length
  other : ∀ r, r ≠ .rsp → r ∉ rs → t.reg r = s.reg r
  touched : ∀ a ∈ t.touched, a ∈ s.touched ∨
    ∃ k < rs.length, a = s.reg .rsp + UInt64.ofNat (8 * k)
  mem : t.mem = s.mem
  outside : t.outside = s.outside

section Steps
variable {r r' : Reg64} {imm : UInt64}

theorem push_rsp : ((Op.push r).apply s).reg .rsp = s.reg .rsp - 8 :=
  write_same s .rsp _

theorem push_reg (h : r' ≠ .rsp) : ((Op.push r).apply s).reg r' = s.reg r' :=
  write_other s _ h

theorem pop_rsp (h : r ≠ .rsp) : ((Op.pop r).apply s).reg .rsp = s.reg .rsp + 8 :=
  (write_other (s.write .rsp _) _ h.symm).trans (write_same s .rsp _)

theorem pop_self : ((Op.pop r).apply s).reg r = loadQword s.mem (s.reg .rsp) :=
  write_same _ r _

theorem pop_other (hr : r' ≠ r) (hrsp : r' ≠ .rsp) :
    ((Op.pop r).apply s).reg r' = s.reg r' :=
  (write_other (s.write .rsp _) _ hr).trans (write_other s _ hrsp)

theorem mov_self : ((Op.mov r r').apply s).reg r = s.reg r' := write_same s r _

theorem add_self : ((Op.add r imm).apply s).reg r = s.reg r + imm := write_same s r _

theorem add_other (h : r' ≠ r) : ((Op.add r imm).apply s).reg r' = s.reg r' := write_other s _ h

theorem sub_self : ((Op.sub r imm).apply s).reg r = s.reg r - imm := write_same s r _

theorem sub_other (h : r' ≠ r) : ((Op.sub r imm).apply s).reg r' = s.reg r' := write_other s _ h

theorem mov_other {src : Reg64} (h : r' ≠ r) : ((Op.mov r src).apply s).reg r' = s.reg r' :=
  write_other s _ h

theorem testLow_zf : ((Op.testLow r).apply s).zf = ((s.reg r).toUInt8 == 0) := by
  rw [Op.apply, UInt8.and_self]

end Steps

theorem ofNat_slot_succ (n : Nat) :
    UInt64.ofNat (8 * (n + 1)) = UInt64.ofNat (8 * n) + 8 :=
  UInt64.ofNat_add _ _

theorem Pushed.push {t : X64State σ} {r : Reg64} (h : Pushed rs s t) (hr : r ≠ .rsp) :
    Pushed (rs ++ [r]) s ((Op.push r).apply t) := by
  have hlength : (rs ++ [r]).length = rs.length + 1 := List.length_append
  have hslot : t.reg .rsp - 8 = s.reg .rsp - UInt64.ofNat (8 * (rs.length + 1)) := by
    rw [h.rsp, ofNat_slot_succ]
    grind
  refine ⟨?_, ?_, ?_, ?_, h.outside⟩
  · rw [hlength, push_rsp, hslot]
  · intro r' hr'
    rw [push_reg hr', h.reg r' hr']
  · intro hsize
    rw [hlength] at hsize
    have hlow : (t.reg .rsp - 8 + 8 - (t.reg .rsp - 8)).toNat = 8 := by
      have hdiff : t.reg .rsp - 8 + 8 - (t.reg .rsp - 8) = 8 := by grind
      rw [hdiff]
      rfl
    rw [hlength, push_rsp, List.map_append, List.reverse_append]
    change loadQword (storeQword _ _ _) _ :: qwords (storeQword _ _ _) _ _ = _
    rw [loadQword_storeQword, qwords_storeQword (by omega) (by omega), UInt64.sub_add_cancel,
      h.saved (by omega), h.reg r hr]
    rfl
  · intro a ha
    rcases List.mem_append.mp ha with ha | ha
    · rcases h.touched a ha with hold | ⟨k, hk, hslot⟩
      · exact .inl hold
      · exact .inr ⟨k, by omega, hslot⟩
    · rw [List.mem_singleton.mp ha, hslot]
      exact .inr ⟨rs.length, by omega, rfl⟩

theorem pushAll_pushed (h : .rsp ∉ rs) : Pushed rs s (s.applyAll (rs.map .push)) := by
  induction rs using List.reverseRecOn with
  | nil =>
    refine ⟨?_, fun _ _ => rfl, fun _ => rfl, fun a ha => .inl ha, rfl⟩
    exact (UInt64.sub_zero _).symm
  | append_singleton rs r ih =>
    rw [List.mem_append, not_or] at h
    obtain ⟨hrs, hr⟩ := h
    have hne : r ≠ .rsp := fun heq => hr (List.mem_singleton.mpr heq.symm)
    rw [List.map_append, applyAll_append]
    exact (ih hrs).push hne

theorem popAll_popped (h : .rsp ∉ rs) (hnodup : rs.Nodup) :
    Popped rs s (s.applyAll (rs.map .pop)) := by
  induction rs generalizing s with
  | nil =>
    refine ⟨?_, rfl, fun _ _ _ => rfl, fun a ha => .inl ha, rfl, rfl⟩
    exact (UInt64.add_zero _).symm
  | cons r rs ih =>
    rw [List.mem_cons, not_or] at h
    obtain ⟨hr, hrs⟩ := h
    obtain ⟨hfresh, hnodup⟩ := List.nodup_cons.mp hnodup
    have hrest := ih (s := (Op.pop r).apply s) hrs hnodup
    have hrsp := pop_rsp (s := s) (Ne.symm hr)
    refine ⟨?_, ?_, ?_, ?_, hrest.mem, hrest.outside⟩
    · rw [List.length_cons, ofNat_slot_succ]
      refine hrest.rsp.trans ?_
      rw [hrsp]
      grind
    · refine List.cons_eq_cons.mpr ⟨?_, ?_⟩
      · exact (hrest.other r (Ne.symm hr) hfresh).trans pop_self
      · refine hrest.restored.trans ?_
        rw [hrsp]
        rfl
    · intro r' hr' hmem
      rw [List.mem_cons, not_or] at hmem
      exact (hrest.other r' hr' hmem.2).trans (pop_other hmem.1 hr')
    · intro a ha
      rcases hrest.touched a ha with ha | ⟨k, hk, hslot⟩
      · rcases List.mem_append.mp ha with ha | ha
        · exact .inl ha
        · rw [List.mem_singleton.mp ha]
          exact .inr ⟨0, Nat.zero_lt_succ _, (UInt64.add_zero _).symm⟩
      · refine .inr ⟨k + 1, Nat.succ_lt_succ hk, ?_⟩
        rw [hslot, hrsp, ofNat_slot_succ]
        grind

end Stack
end HwMon
