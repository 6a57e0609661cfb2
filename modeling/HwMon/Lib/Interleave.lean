import HwMon.Lib.Probe
import Mathlib.Logic.Function.Basic

/-!
# Interleaved tasks

A `Task` is a computation that can stop before each of its accesses, and `toProbe`
runs it without a stop. A pool holds one task for each thread, and a schedule
names the thread of every step. An assertion for each point of a task holds in all
schedules when the accesses of its own thread establish it and those of the other
threads keep it.
-/

namespace HwMon
set_option autoImplicit false

inductive Task (ι : Type) (ρ : ι → Type) (ω α : Type) where
  | done (a : α)
  | ask (i : ι) (k : ρ i → Task ι ρ ω α)
  | note (w : ω) (k : Task ι ρ ω α)

namespace Task
variable {ι : Type} {ρ : ι → Type} {ω α β : Type}

def toProbe : Task ι ρ ω α → Probe ι ρ ω α
  | .done a => pure a
  | .ask i k => Probe.ask i >>= fun a => (k a).toProbe
  | .note w k => Probe.note w >>= fun _ => k.toProbe

def bind (f : α → Task ι ρ ω β) : Task ι ρ ω α → Task ι ρ ω β
  | .done a => f a
  | .ask i k => .ask i fun a => (k a).bind f
  | .note w k => .note w (k.bind f)

theorem toProbe_bind (f : α → Task ι ρ ω β) (t : Task ι ρ ω α) :
    (t.bind f).toProbe = t.toProbe >>= fun a => (f a).toProbe := by
  induction t with
  | done a => exact (Probe.pure_bind a fun a => (f a).toProbe).symm
  | ask i k ih =>
    simp only [bind, toProbe, ih]
    exact (Probe.bind_assoc _ _ _).symm
  | note w k ih =>
    simp only [bind, toProbe, ih]
    exact (Probe.bind_assoc _ _ _).symm

/-- At most `n` accesses, whatever is answered. -/
inductive Within : Nat → Task ι ρ ω α → Prop
  | done {n : Nat} (a : α) : Within n (.done a)
  | ask {n : Nat} {i : ι} {k : ρ i → Task ι ρ ω α} (h : ∀ a, Within n (k a)) :
      Within (n + 1) (.ask i k)
  | note {n : Nat} {w : ω} {k : Task ι ρ ω α} (h : Within n k) : Within (n + 1) (.note w k)

end Task

/-- What an access of a thread gets from the shared state, given the number of accesses
so far, and what an event does to it; an event that has to wait has no effect yet. -/
structure World (τ ι : Type) (ρ : ι → Type) (ω σ : Type) where
  answer : τ → Nat → σ → ∀ i, ρ i
  effect : τ → σ → ω → Option σ

structure Pool (τ ι : Type) (ρ : ι → Type) (ω α σ : Type) where
  task : τ → Task ι ρ ω α
  shared : σ
  trace : List (τ × Access ι ω)

namespace Pool
variable {τ ι : Type} {ρ : ι → Type} {ω α σ : Type} [DecidableEq τ]
  (world : World τ ι ρ ω σ)

/-- One step of thread `t`; nothing happens when it is done or has to wait. -/
def step (c : Pool τ ι ρ ω α σ) (t : τ) : Pool τ ι ρ ω α σ :=
  match c.task t with
  | .done _ => c
  | .ask i k =>
    { task := Function.update c.task t (k (world.answer t c.trace.length c.shared i))
      shared := c.shared
      trace := c.trace ++ [(t, .read i)] }
  | .note w k =>
    match world.effect t c.shared w with
    | none => c
    | some s =>
      { task := Function.update c.task t k
        shared := s
        trace := c.trace ++ [(t, .note w)] }

def run (c : Pool τ ι ρ ω α σ) (schedule : List τ) : Pool τ ι ρ ω α σ :=
  schedule.foldl (step world) c

section Step
variable {world} {c : Pool τ ι ρ ω α σ} {t : τ}

theorem step_ask {i : ι} {k : ρ i → Task ι ρ ω α} (h : c.task t = .ask i k) :
    c.step world t =
      ⟨Function.update c.task t (k (world.answer t c.trace.length c.shared i)), c.shared,
        c.trace ++ [(t, .read i)]⟩ := by
  unfold step
  rw [h]

theorem step_note {w : ω} {k : Task ι ρ ω α} {s : σ} (h : c.task t = .note w k)
    (heffect : world.effect t c.shared w = some s) :
    c.step world t = ⟨Function.update c.task t k, s, c.trace ++ [(t, .note w)]⟩ := by
  unfold step
  rw [h]
  simp only [heffect]

end Step

/-- Everything a step can do. -/
theorem step_cases (c : Pool τ ι ρ ω α σ) (t : τ) : c.step world t = c ∨
    (∃ i k, c.task t = .ask i k ∧ c.step world t =
      ⟨Function.update c.task t (k (world.answer t c.trace.length c.shared i)), c.shared,
        c.trace ++ [(t, .read i)]⟩) ∨
    (∃ w k s, c.task t = .note w k ∧ world.effect t c.shared w = some s ∧
      c.step world t = ⟨Function.update c.task t k, s, c.trace ++ [(t, .note w)]⟩) := by
  cases htask : c.task t with
  | done a =>
    left
    unfold step
    rw [htask]
  | ask i k => exact .inr (.inl ⟨i, k, rfl, step_ask htask⟩)
  | note w k =>
    cases heffect : world.effect t c.shared w with
    | none =>
      left
      unfold step
      rw [htask]
      simp only [heffect]
    | some s => exact .inr (.inr ⟨w, k, s, rfl, heffect, step_note htask heffect⟩)

theorem run_invariant {I : Pool τ ι ρ ω α σ → Prop} (hstep : ∀ c t, I c → I (c.step world t))
    {c : Pool τ ι ρ ω α σ} (h : I c) (schedule : List τ) : I (c.run world schedule) := by
  induction schedule generalizing c with
  | nil => exact h
  | cons t schedule ih => exact ih (hstep c t h)

/-- Assertions about the rest of a task, the shared state and the accesses so far, that
the own accesses establish and the accesses of other threads keep. -/
structure Outline (A : τ → Task ι ρ ω α → σ → List (τ × Access ι ω) → Prop) : Prop where
  ask : ∀ t i k s trace, A t (.ask i k) s trace →
    A t (k (world.answer t trace.length s i)) s (trace ++ [(t, .read i)])
  note : ∀ t w k s s' trace, A t (.note w k) s trace → world.effect t s w = some s' →
    A t k s' (trace ++ [(t, .note w)])
  otherAsk : ∀ t u p i s trace, u ≠ t → A t p s trace → A t p s (trace ++ [(u, .read i)])
  otherNote : ∀ t u p w k s s' trace, u ≠ t → A t p s trace → A u (.note w k) s trace →
    world.effect u s w = some s' → A t p s' (trace ++ [(u, .note w)])

/-- Every thread is at a point whose assertion holds. -/
def Annotated (A : τ → Task ι ρ ω α → σ → List (τ × Access ι ω) → Prop)
    (c : Pool τ ι ρ ω α σ) : Prop :=
  ∀ t, A t (c.task t) c.shared c.trace

variable {world} {A : τ → Task ι ρ ω α → σ → List (τ × Access ι ω) → Prop}

theorem Outline.step (houtline : Outline world A) (c : Pool τ ι ρ ω α σ) (u : τ)
    (h : c.Annotated A) : (c.step world u).Annotated A := by
  rcases step_cases world c u with hstep | ⟨i, k, htask, hstep⟩ |
    ⟨w, k, s, htask, heffect, hstep⟩
  · rw [hstep]
    exact h
  · rw [hstep]
    intro t
    by_cases htu : u = t
    · subst htu
      have hu := h u
      rw [htask] at hu
      change A u (Function.update c.task u _ u) _ _
      rw [Function.update_self]
      exact houtline.ask _ _ _ _ _ hu
    · change A t (Function.update c.task u _ t) _ _
      rw [Function.update_of_ne (Ne.symm htu)]
      exact houtline.otherAsk _ _ _ _ _ _ htu (h t)
  · rw [hstep]
    intro t
    have hu := h u
    rw [htask] at hu
    by_cases htu : u = t
    · subst htu
      change A u (Function.update c.task u _ u) _ _
      rw [Function.update_self]
      exact houtline.note _ _ _ _ _ _ hu heffect
    · change A t (Function.update c.task u _ t) _ _
      rw [Function.update_of_ne (Ne.symm htu)]
      exact houtline.otherNote _ _ _ _ _ _ _ _ htu (h t) hu heffect

theorem Outline.run (houtline : Outline world A) {c : Pool τ ι ρ ω α σ} (h : c.Annotated A)
    (schedule : List τ) : (c.run world schedule).Annotated A :=
  run_invariant world houtline.step h schedule

/-- The number of accesses of thread `t`. -/
def ownAccesses (t : τ) (trace : List (τ × Access ι ω)) : Nat :=
  trace.countP fun e => e.1 = t

theorem ownAccesses_self (t : τ) (trace : List (τ × Access ι ω)) (a : Access ι ω) :
    ownAccesses t (trace ++ [(t, a)]) = ownAccesses t trace + 1 := by
  simp [ownAccesses]

theorem ownAccesses_other {t u : τ} (h : u ≠ t) (trace : List (τ × Access ι ω))
    (a : Access ι ω) : ownAccesses t (trace ++ [(u, a)]) = ownAccesses t trace := by
  simp [ownAccesses, h]

/-- What a thread has done and what it may still do are `bound` accesses at most. -/
def Budget (bound : Nat) (t : τ) (p : Task ι ρ ω α) (_ : σ) (trace : List (τ × Access ι ω)) :
    Prop :=
  ∃ n, p.Within n ∧ n + ownAccesses t trace ≤ bound

theorem budget_outline (bound : Nat) :
    Outline world (Budget bound : τ → Task ι ρ ω α → σ → _ → Prop) := by
  refine ⟨?_, ?_, ?_, ?_⟩
  · intro t i k s trace h
    obtain ⟨n, hwithin, hle⟩ := h
    cases hwithin with
    | @ask n _ _ hk =>
      refine ⟨n, hk _, ?_⟩
      rw [ownAccesses_self]
      omega
  · intro t w k s s' trace h _
    obtain ⟨n, hwithin, hle⟩ := h
    cases hwithin with
    | @note n _ _ hk =>
      refine ⟨n, hk, ?_⟩
      rw [ownAccesses_self]
      omega
  · intro t u p i s trace hne h
    unfold Budget
    rw [ownAccesses_other hne]
    exact h
  · intro t u p w k s s' trace hne h _ _
    unfold Budget
    rw [ownAccesses_other hne]
    exact h

theorem ownAccesses_run_le {bound : Nat} {c : Pool τ ι ρ ω α σ} (hstart : c.trace = [])
    (h : ∀ t, (c.task t).Within bound) (t : τ) (schedule : List τ) :
    ownAccesses t (c.run world schedule).trace ≤ bound := by
  have hinit : c.Annotated (Budget bound) := by
    intro u
    refine ⟨bound, h u, ?_⟩
    rw [hstart]
    exact Nat.le_refl _
  have hrun : (c.run world schedule).Annotated (Budget bound) :=
    (budget_outline bound).run hinit schedule
  obtain ⟨n, -, hle⟩ := hrun t
  omega

end Pool
end HwMon
