import Mathlib.Data.List.Basic

/-!
# Programs that change a state and may stop

A `Prog` is run in an environment that does not change and from a state. It
either returns a value or stops for a reason; in both cases there is a state
afterwards. The rules give the run of a compound program from those of its parts.
-/

namespace HwMon
set_option autoImplicit false

structure Prog (ε σ τ α : Type) where
  run : ε → σ → Except τ α × σ

namespace Prog
variable {ε σ τ α β : Type}

instance : Monad (Prog ε σ τ) where
  pure a := ⟨fun _ s => (.ok a, s)⟩
  bind p f := ⟨fun e s =>
    match p.run e s with
    | (.ok a, t) => (f a).run e t
    | (.error x, t) => (.error x, t)⟩

def env (f : ε → α) : Prog ε σ τ α := ⟨fun e s => (.ok (f e), s)⟩

def get (f : σ → α) : Prog ε σ τ α := ⟨fun _ s => (.ok (f s), s)⟩

def modify (f : σ → σ) : Prog ε σ τ Unit := ⟨fun _ s => (.ok (), f s)⟩

def stop (x : τ) (f : σ → σ) : Prog ε σ τ α := ⟨fun _ s => (.error x, f s)⟩

/-- A program for each element of a list, in order. -/
def each (f : α → Prog ε σ τ Unit) : List α → Prog ε σ τ Unit
  | [] => pure ()
  | a :: l => do
    f a
    each f l

/-- A program on a part of the state, in a part of the environment. -/
def within {ε' σ' τ' : Type} (view : ε → ε') (part : σ → σ') (put : σ → σ' → σ) (fault : τ' → τ)
    (p : Prog ε' σ' τ' α) : Prog ε σ τ α :=
  ⟨fun e s =>
    match p.run (view e) (part s) with
    | (.ok a, t) => (.ok a, put s t)
    | (.error x, t) => (.error (fault x), put s t)⟩

section Rules
variable {e : ε} {s t : σ}

@[simp] theorem run_pure (a : α) : (pure a : Prog ε σ τ α).run e s = (.ok a, s) := rfl

@[simp] theorem run_env (f : ε → α) : (env f : Prog ε σ τ α).run e s = (.ok (f e), s) := rfl

@[simp] theorem run_get (f : σ → α) : (get f : Prog ε σ τ α).run e s = (.ok (f s), s) := rfl

@[simp] theorem run_modify (f : σ → σ) : (modify f : Prog ε σ τ Unit).run e s = (.ok (), f s) := rfl

@[simp] theorem run_stop (x : τ) (f : σ → σ) :
    (stop x f : Prog ε σ τ α).run e s = (.error x, f s) := rfl

theorem run_ite (c : Prop) [Decidable c] (p q : Prog ε σ τ α) :
    (if c then p else q).run e s = if c then p.run e s else q.run e s :=
  apply_ite (fun r : Prog ε σ τ α => r.run e s) c p q

theorem run_bind (p : Prog ε σ τ α) (f : α → Prog ε σ τ β) : (p >>= f).run e s =
    match p.run e s with
    | (.ok a, t) => (f a).run e t
    | (.error x, t) => (.error x, t) := rfl

theorem bind_of_ok {p : Prog ε σ τ α} {a : α} (h : p.run e s = (.ok a, t))
    (f : α → Prog ε σ τ β) : (p >>= f).run e s = (f a).run e t := by
  rw [run_bind, h]

theorem bind_of_error {p : Prog ε σ τ α} {x : τ} (h : p.run e s = (.error x, t))
    (f : α → Prog ε σ τ β) : (p >>= f).run e s = (.error x, t) := by
  rw [run_bind, h]

theorem bind_assoc {γ : Type} (p : Prog ε σ τ α) (f : α → Prog ε σ τ β) (g : β → Prog ε σ τ γ) :
    p >>= f >>= g = p >>= fun a => f a >>= g := by
  have hrun : ∀ e s, (p >>= f >>= g).run e s = (p >>= fun a => f a >>= g).run e s := by
    intro e s
    simp only [run_bind]
    rcases p.run e s with ⟨x | a, t⟩ <;> rfl
  exact congrArg Prog.mk (funext fun e => funext fun s => hrun e s)

/-- The program does not stop, and what it returns and leaves satisfies `Q`. -/
def Returns (p : Prog ε σ τ α) (e : ε) (s : σ) (Q : α → σ → Prop) : Prop :=
  ∃ a t, p.run e s = (.ok a, t) ∧ Q a t

section Returning
variable {P Q : α → σ → Prop}

theorem Returns.mono {p : Prog ε σ τ α} (h : p.Returns e s P) (hPQ : ∀ a t, P a t → Q a t) :
    p.Returns e s Q := by
  obtain ⟨a, t, hrun, hP⟩ := h
  exact ⟨a, t, hrun, hPQ a t hP⟩

theorem Returns.bind {p : Prog ε σ τ α} {f : α → Prog ε σ τ β} {R : β → σ → Prop}
    (h : p.Returns e s P) (hf : ∀ a t, P a t → (f a).Returns e t R) :
    (p >>= f).Returns e s R := by
  obtain ⟨a, t, hrun, hP⟩ := h
  obtain ⟨b, u, hrun', hR⟩ := hf a t hP
  exact ⟨b, u, (bind_of_ok hrun f).trans hrun', hR⟩

theorem returns_pure {a : α} (h : Q a s) : (pure a : Prog ε σ τ α).Returns e s Q :=
  ⟨a, s, rfl, h⟩

theorem returns_env (f : ε → α) : (env f : Prog ε σ τ α).Returns e s fun a t => a = f e ∧ t = s :=
  ⟨_, _, rfl, rfl, rfl⟩

theorem returns_ite {c : Prop} [Decidable c] {p q : Prog ε σ τ α} (hp : c → p.Returns e s Q)
    (hq : ¬c → q.Returns e s Q) : (if c then p else q).Returns e s Q := by
  split
  · exact hp ‹_›
  · exact hq ‹_›

theorem returns_within {ε' σ' τ' : Type} {view : ε → ε'} {part : σ → σ'} {put : σ → σ' → σ}
    {fault : τ' → τ} {p : Prog ε' σ' τ' α} {R : α → σ' → Prop}
    (h : p.Returns (view e) (part s) R) :
    (within view part put fault p).Returns e s fun a t => ∃ u, t = put s u ∧ R a u := by
  obtain ⟨a, u, hrun, hR⟩ := h
  refine ⟨a, put s u, ?_, u, rfl, hR⟩
  simp only [within, hrun]

end Returning
end Rules
end Prog
end HwMon
