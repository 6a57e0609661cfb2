import HwMon.Lib.Prog
import Mathlib.Logic.Function.Basic

/-!
# Programs that own cells

A program is handed cells by the world outside, uses them and gives them back. It
stops when it uses or gives back a cell that it does not own. Calls of the world
outside are numbered, so that it may answer differently every time.
-/

namespace HwMon
set_option autoImplicit false

structure Store (κ : Type) where
  cells : Nat → Option κ
  next : Nat
  calls : Nat
  fresh : ∀ p, next ≤ p → cells p = none

namespace Store
variable {κ : Type}

def empty : Store κ := ⟨fun _ => none, 0, 0, fun _ _ => rfl⟩

def tick (h : Store κ) : Store κ := { h with calls := h.calls + 1 }

def add (h : Store κ) (b : κ) : Store κ where
  cells := Function.update h.cells h.next (some b)
  next := h.next + 1
  calls := h.calls + 1
  fresh p hp := by
    rw [Function.update_of_ne (by omega)]
    exact h.fresh p (by omega)

/-- The store after a change to the cell at `p`, if there is one. -/
def change (h : Store κ) (p : Nat) (f : κ → Option κ) : Store κ where
  cells := Function.update h.cells p ((h.cells p).bind f)
  next := h.next
  calls := h.calls
  fresh q hq := by
    by_cases hqp : q = p
    · rw [hqp, Function.update_self, h.fresh p (hqp ▸ hq), Option.bind_none]
    · rw [Function.update_of_ne hqp]
      exact h.fresh q hq

/-- The store is `h` with one more cell. -/
def With (h : Store κ) (p : Nat) (b : κ) (t : Store κ) : Prop :=
  h.cells p = none ∧ t.cells = Function.update h.cells p (some b)

/-- The cells are those of `h`, and some calls may have been made. -/
def Keeps (h t : Store κ) : Prop := t.cells = h.cells ∧ h.calls ≤ t.calls

theorem Keeps.refl (h : Store κ) : h.Keeps h := ⟨rfl, Nat.le_refl _⟩

theorem Keeps.trans {h t u : Store κ} (ht : h.Keeps t) (hu : t.Keeps u) : h.Keeps u :=
  ⟨hu.1.trans ht.1, Nat.le_trans ht.2 hu.2⟩

/-- Call `n` was made between the two stores. -/
def Between (h t : Store κ) (n : Nat) : Prop := h.calls ≤ n ∧ n < t.calls

theorem Between.widen {h h' t t' : Store κ} {n : Nat} (hn : Between h' t n)
    (hh : h.calls ≤ h'.calls) (ht : t.calls ≤ t'.calls) : Between h t' n :=
  ⟨Nat.le_trans hh hn.1, Nat.lt_of_lt_of_le hn.2 ht⟩

section With
variable {h t u : Store κ} {p : Nat} {b : κ}

theorem With.self (ht : h.With p b t) : t.cells p = some b := by
  rw [ht.2, Function.update_self]

theorem With.other (ht : h.With p b t) {q : Nat} (hq : q ≠ p) : t.cells q = h.cells q := by
  rw [ht.2, Function.update_of_ne hq]

theorem With.keeps (ht : h.With p b t) (hu : u.cells = t.cells) : h.With p b u :=
  ⟨ht.1, hu.trans ht.2⟩

theorem With.of_same (hu : t.With p b u) (ht : t.cells = h.cells) : h.With p b u := by
  obtain ⟨hnone, hcells⟩ := hu
  rw [ht] at hnone hcells
  exact ⟨hnone, hcells⟩

/-- Once the cell is gone, the store is what it was. -/
theorem With.gone (ht : h.With p b t) {f : κ → Option κ} (hf : f b = none) :
    (t.change p f).cells = h.cells := by
  change Function.update t.cells p ((t.cells p).bind f) = h.cells
  rw [ht.self, Option.bind_some, hf, ht.2, Function.update_idem, ← ht.1,
    Function.update_eq_self]

theorem With.changed (ht : h.With p b t) {f : κ → Option κ} {b' : κ} (hf : f b = some b') :
    h.With p b' (t.change p f) := by
  refine ⟨ht.1, ?_⟩
  change Function.update t.cells p ((t.cells p).bind f) = _
  rw [ht.self, Option.bind_some, hf, ht.2, Function.update_idem]

theorem With.older_ne {q : Nat} {c : κ} (ht : h.With p b t) (hu : t.With q c u) : p ≠ q := by
  rintro rfl
  have hnone := hu.1
  rw [ht.self] at hnone
  cases hnone

theorem With.older {q : Nat} {c : κ} (ht : h.With p b t) (hu : t.With q c u) :
    u.cells p = some b := by
  rw [hu.other (ht.older_ne hu), ht.self]

/-- The older of two cells may go first. -/
theorem With.gone_under {q : Nat} {c : κ} (ht : h.With p b t) (hu : t.With q c u)
    {f : κ → Option κ} (hf : f b = none) : h.With q c (u.change p f) := by
  have hpq := ht.older_ne hu
  refine ⟨(ht.other hpq.symm).symm.trans hu.1, ?_⟩
  change Function.update u.cells p ((u.cells p).bind f) = _
  rw [ht.older hu, Option.bind_some, hf, hu.2, ht.2, Function.update_comm hpq.symm,
    Function.update_idem]
  congr 1
  rw [← ht.1, Function.update_eq_self]

end With
end Store

abbrev StoreM (ε κ τ α : Type) := Prog ε (Store κ) τ α

section Operations
variable {ε κ τ α : Type}

/-- A call of the world outside. -/
def outside (f : ε → Nat → α) : StoreM ε κ τ α :=
  ⟨fun e h => (.ok (f e h.calls), h.tick)⟩

/-- A call that asks for the cell `b`, where `grants` says whether it is handed out. -/
def request (grants : ε → Nat → Bool) (b : κ) : StoreM ε κ τ (Option Nat) :=
  ⟨fun e h => if grants e h.calls = true then (.ok (some h.next), h.add b) else (.ok none, h.tick)⟩

/-- An access to the cell at `p`; `f` gives the result and the cell afterwards. -/
def access (missing : τ) (p : Nat) (f : κ → Except τ (α × Option κ)) : StoreM ε κ τ α :=
  ⟨fun _ h =>
    match h.cells p with
    | none => (.error missing, h)
    | some b =>
      match f b with
      | .error x => (.error x, h)
      | .ok (a, b') => (.ok a, h.change p fun _ => b')⟩

def giveBack (missing : τ) (p : Nat) : StoreM ε κ τ Unit := access missing p fun _ => .ok ((), none)

section Rules
variable {e : ε} {h t u : Store κ} {p : Nat} {b : κ} {missing : τ}

theorem returns_outside (f : ε → Nat → α) :
    (outside f : StoreM ε κ τ α).Returns e h fun a t =>
      a = f e h.calls ∧ t.cells = h.cells ∧ t.calls = h.calls + 1 :=
  ⟨_, _, rfl, rfl, rfl, rfl⟩

/-- What a request may leave. -/
def Requested (grants : Nat → Bool) (b : κ) (h : Store κ) (r : Option Nat) (t : Store κ) : Prop :=
  t.calls = h.calls + 1 ∧
    match r with
    | none => t.cells = h.cells ∧ grants h.calls = false
    | some p => grants h.calls = true ∧ h.With p b t

theorem returns_request (grants : ε → Nat → Bool) (b : κ) :
    (request grants b : StoreM ε κ τ _).Returns e h (Requested (grants e) b h) := by
  cases hgrant : grants e h.calls with
  | false => exact ⟨none, h.tick, if_neg (Bool.eq_false_iff.mp hgrant), rfl, rfl, hgrant⟩
  | true =>
    exact ⟨some h.next, h.add b, if_pos hgrant, rfl, hgrant, h.fresh _ (Nat.le_refl _), rfl⟩

theorem access_ok {f : κ → Except τ (α × Option κ)} {a : α} {b' : Option κ}
    (hp : t.cells p = some b) (hf : f b = .ok (a, b')) :
    (access missing p f : StoreM ε κ τ α).run e t = (.ok a, t.change p fun _ => b') := by
  simp only [access, hp, hf]

/-- An access that leaves the cell as it is. -/
theorem returns_access_same {f : κ → Except τ (α × Option κ)} {a : α} (hp : t.cells p = some b)
    (hf : f b = .ok (a, some b)) :
    (access missing p f : StoreM ε κ τ α).Returns e t fun a' u =>
      a' = a ∧ u.cells = t.cells ∧ u.calls = t.calls := by
  refine ⟨_, _, access_ok hp hf, rfl, ?_, rfl⟩
  change Function.update t.cells p ((t.cells p).bind fun _ => some b) = t.cells
  rw [hp, Option.bind_some, ← hp, Function.update_eq_self]

theorem returns_giveBack (ht : h.With p b t) :
    (giveBack missing p : StoreM ε κ τ Unit).Returns e t fun _ u =>
      u.cells = h.cells ∧ u.calls = t.calls :=
  ⟨(), _, access_ok ht.self rfl, ht.gone rfl, rfl⟩

theorem returns_giveBack_under {q : Nat} {c : κ} (ht : h.With p b t) (hu : t.With q c u) :
    (giveBack missing p : StoreM ε κ τ Unit).Returns e u fun _ v =>
      h.With q c v ∧ v.calls = u.calls :=
  ⟨(), _, access_ok (ht.older hu) rfl, ht.gone_under hu rfl, rfl⟩

end Rules
end Operations
end HwMon
