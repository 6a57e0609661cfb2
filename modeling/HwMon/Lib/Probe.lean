import Mathlib.Data.List.Basic

/-!
# Computations that ask an oracle and keep a log

A `Probe` asks questions `i : ι` of an oracle (`ρ i` is the type of the
answer), notes events of type `ω`, and returns a value. Its log lists every
question and every event in order. The frame field says that nothing but the
answers to the logged questions can influence a run, so two oracles that agree
on the log of one run give the same run.
-/

namespace HwMon
set_option autoImplicit false

inductive Access (ι ω : Type) where
  | read (i : ι)
  | note (w : ω)
  deriving DecidableEq, Repr

structure Probe (ι : Type) (ρ : ι → Type) (ω α : Type) where
  run : (∀ i, ρ i) → α × List (Access ι ω)
  frame : ∀ m m', (∀ i, Access.read i ∈ (run m).2 → m i = m' i) → run m' = run m

namespace Probe
variable {ι : Type} {ρ : ι → Type} {ω α β : Type}

def val (p : Probe ι ρ ω α) (m : ∀ i, ρ i) : α := (p.run m).1

def log (p : Probe ι ρ ω α) (m : ∀ i, ρ i) : List (Access ι ω) := (p.run m).2

/-- The events of a run that `f` picks out, in order. -/
def select {γ : Type} (f : ω → Option γ) (p : Probe ι ρ ω α) (m : ∀ i, ρ i) : List γ :=
  (p.log m).filterMap fun a => match a with
    | .read _ => none
    | .note w => f w

instance : Monad (Probe ι ρ ω) where
  pure a := ⟨fun _ => (a, []), fun _ _ _ => rfl⟩
  bind p f :=
    { run := fun m => (((f (p.run m).1).run m).1, (p.run m).2 ++ ((f (p.run m).1).run m).2)
      frame := by
        intro m m' h
        have hp := p.frame m m' fun i hi => h i (List.mem_append_left _ hi)
        have hf := (f (p.run m).1).frame m m' fun i hi => h i (List.mem_append_right _ hi)
        simp only [hp, hf] }

theorem eq_of_run {p q : Probe ι ρ ω α} (h : ∀ m, p.run m = q.run m) : p = q := by
  have hrun : p.run = q.run := funext h
  cases p
  cases q
  cases hrun
  rfl

theorem pure_bind (a : α) (f : α → Probe ι ρ ω β) : pure a >>= f = f a :=
  eq_of_run fun _ => rfl

theorem bind_assoc {γ : Type} (p : Probe ι ρ ω α) (f : α → Probe ι ρ ω β)
    (g : β → Probe ι ρ ω γ) : p >>= f >>= g = p >>= fun a => f a >>= g := by
  apply eq_of_run
  intro m
  exact congrArg (Prod.mk _) (List.append_assoc _ _ _)

def ask (i : ι) : Probe ι ρ ω (ρ i) where
  run m := (m i, [.read i])
  frame := by
    intro m m' h
    rw [h i (List.mem_singleton.mpr rfl)]

def note (w : ω) : Probe ι ρ ω Unit where
  run _ := ((), [.note w])
  frame _ _ _ := rfl

section Values
variable (m : ∀ i, ρ i)

@[simp] theorem val_pure (a : α) : (pure a : Probe ι ρ ω α).val m = a := (rfl)

@[simp ↓] theorem val_bind (p : Probe ι ρ ω α) (f : α → Probe ι ρ ω β) :
    (p >>= f).val m = (f (p.val m)).val m := (rfl)

@[simp] theorem val_ask (i : ι) : (ask i : Probe ι ρ ω (ρ i)).val m = m i := (rfl)

@[simp ↓] theorem val_ite (c : Prop) [Decidable c] (p q : Probe ι ρ ω α) :
    (if c then p else q).val m = if c then p.val m else q.val m := by
  split <;> rfl

end Values

section Logs
variable (m : ∀ i, ρ i)

@[simp] theorem log_pure (a : α) : (pure a : Probe ι ρ ω α).log m = [] := (rfl)

@[simp ↓] theorem log_bind (p : Probe ι ρ ω α) (f : α → Probe ι ρ ω β) :
    (p >>= f).log m = p.log m ++ (f (p.val m)).log m := (rfl)

@[simp] theorem log_ask (i : ι) : (ask i : Probe ι ρ ω (ρ i)).log m = [.read i] := (rfl)

@[simp] theorem log_note (w : ω) : (note w : Probe ι ρ ω Unit).log m = [.note w] := (rfl)

@[simp ↓] theorem log_ite (c : Prop) [Decidable c] (p q : Probe ι ρ ω α) :
    (if c then p else q).log m = if c then p.log m else q.log m := by
  split <;> rfl

end Logs

/-- How many entries of the log satisfy `f`. -/
def tally (f : Access ι ω → Bool) (p : Probe ι ρ ω α) (m : ∀ i, ρ i) : Nat := (p.log m).countP f

section Tally
variable {f : Access ι ω → Bool} {m : ∀ i, ρ i}

@[simp ↓] theorem tally_bind (p : Probe ι ρ ω α) (g : α → Probe ι ρ ω β) :
    (p >>= g).tally f m = p.tally f m + (g (p.val m)).tally f m :=
  List.countP_append

theorem tally_bind_le {p : Probe ι ρ ω α} {g : α → Probe ι ρ ω β} {k n : Nat}
    (hp : p.tally f m ≤ k) (hk : k ≤ n) (hg : (g (p.val m)).tally f m ≤ n - k) :
    (p >>= g).tally f m ≤ n := by
  rw [tally_bind]
  omega

theorem tally_ask (i : ι) :
    (ask i : Probe ι ρ ω (ρ i)).tally f m = if f (.read i) = true then 1 else 0 :=
  List.countP_singleton

/-- Nothing is counted that never happens. -/
theorem tally_eq_zero {P : Access ι ω → Prop} {p : Probe ι ρ ω α} (h : ∀ a ∈ p.log m, P a)
    (hf : ∀ a, P a → f a = false) : p.tally f m = 0 := by
  apply List.countP_eq_zero.mpr
  intro a ha
  rw [hf a (h a ha)]
  exact Bool.false_ne_true

theorem tally_ite_le {c : Prop} [Decidable c] {p q : Probe ι ρ ω α} {n : Nat}
    (hp : c → p.tally f m ≤ n) (hq : ¬c → q.tally f m ≤ n) :
    (if c then p else q).tally f m ≤ n := by
  split
  · exact hp ‹_›
  · exact hq ‹_›

end Tally

/-- Every entry of the log satisfies `P`. -/
def Always (P : Access ι ω → Prop) (p : Probe ι ρ ω α) (m : ∀ i, ρ i) : Prop :=
  ∀ a ∈ p.log m, P a

section Rules
variable {P Q : Access ι ω → Prop} {m m' : ∀ i, ρ i}

theorem Always.mono {p : Probe ι ρ ω α} (h : p.Always P m) (hPQ : ∀ a, P a → Q a) :
    p.Always Q m :=
  fun a ha => hPQ a (h a ha)

@[simp] theorem always_pure (a : α) : (pure a : Probe ι ρ ω α).Always P m :=
  fun _ ha => absurd ha List.not_mem_nil

@[simp] theorem always_bind (p : Probe ι ρ ω α) (f : α → Probe ι ρ ω β) :
    (p >>= f).Always P m ↔ p.Always P m ∧ (f (p.val m)).Always P m := by
  constructor
  · intro h
    exact ⟨fun a ha => h a (List.mem_append_left _ ha),
      fun a ha => h a (List.mem_append_right _ ha)⟩
  · intro hboth a ha
    obtain ⟨hp, hf⟩ := hboth
    rcases List.mem_append.mp ha with ha | ha
    · exact hp a ha
    · exact hf a ha

@[simp] theorem always_ask (i : ι) :
    (ask i : Probe ι ρ ω (ρ i)).Always P m ↔ P (.read i) :=
  ⟨fun h => h _ (List.mem_singleton.mpr rfl), fun h _ ha => List.mem_singleton.mp ha ▸ h⟩

@[simp] theorem always_note (w : ω) :
    (note w : Probe ι ρ ω Unit).Always P m ↔ P (.note w) :=
  ⟨fun h => h _ (List.mem_singleton.mpr rfl), fun h _ ha => List.mem_singleton.mp ha ▸ h⟩

theorem always_ite {c : Prop} [Decidable c] {p q : Probe ι ρ ω α}
    (hp : c → p.Always P m) (hq : ¬c → q.Always P m) : (if c then p else q).Always P m := by
  split
  · exact hp ‹_›
  · exact hq ‹_›

/-- Two oracles that agree on every question a run may ask give the same run. -/
theorem run_congr {p : Probe ι ρ ω α} (h : p.Always P m)
    (agree : ∀ i, P (.read i) → m i = m' i) : p.run m' = p.run m :=
  p.frame m m' fun i hi => agree i (h _ hi)

end Rules

/-- A run of `p` is a run of `q` behind entries that satisfy `P`. -/
def Leads (P : Access ι ω → Prop) (m : ∀ i, ρ i) (p q : Probe ι ρ ω α) : Prop :=
  p.val m = q.val m ∧ ∃ front, p.log m = front ++ q.log m ∧ ∀ a ∈ front, P a

namespace Leads
variable {P : Access ι ω → Prop} {m : ∀ i, ρ i} {p q r : Probe ι ρ ω α}

theorem refl (p : Probe ι ρ ω α) : Leads P m p p :=
  ⟨rfl, [], rfl, fun _ ha => absurd ha List.not_mem_nil⟩

theorem trans (h : Leads P m p q) (h' : Leads P m q r) : Leads P m p r := by
  obtain ⟨hval, front, hlog, hall⟩ := h
  obtain ⟨hval', front', hlog', hall'⟩ := h'
  refine ⟨hval.trans hval', front ++ front', ?_, ?_⟩
  · rw [hlog, hlog', List.append_assoc]
  · intro a ha
    rcases List.mem_append.mp ha with ha | ha
    · exact hall a ha
    · exact hall' a ha

theorem bind {p : Probe ι ρ ω β} (h : p.Always P m) (f : β → Probe ι ρ ω α) :
    Leads P m (p >>= f) (f (p.val m)) :=
  ⟨rfl, p.log m, rfl, h⟩

theorem always_iff (h : Leads P m p q) : p.Always P m ↔ q.Always P m := by
  obtain ⟨_, front, hlog, hall⟩ := h
  constructor
  · intro hp a ha
    exact hp a (hlog ▸ List.mem_append_right front ha)
  · intro hq a ha
    rw [hlog] at ha
    rcases List.mem_append.mp ha with ha | ha
    · exact hall a ha
    · exact hq a ha

end Leads

section Select
variable {γ : Type} {m : ∀ i, ρ i} (f : ω → Option γ)

@[simp] theorem select_pure (a : α) : (pure a : Probe ι ρ ω α).select f m = [] := rfl

@[simp ↓] theorem select_bind (p : Probe ι ρ ω α) (g : α → Probe ι ρ ω β) :
    (p >>= g).select f m = p.select f m ++ (g (p.val m)).select f m :=
  List.filterMap_append

@[simp] theorem select_ask (i : ι) : (ask i : Probe ι ρ ω (ρ i)).select f m = [] := rfl

@[simp] theorem select_note (w : ω) :
    (note w : Probe ι ρ ω Unit).select f m = (f w).toList := by
  cases h : f w <;> simp [select, log, note, h]

@[simp ↓] theorem select_ite (c : Prop) [Decidable c] (p q : Probe ι ρ ω α) :
    (if c then p else q).select f m = if c then p.select f m else q.select f m := by
  split <;> rfl

variable {f}

theorem mem_select {p : Probe ι ρ ω α} {b : γ} :
    b ∈ p.select f m ↔ ∃ w, .note w ∈ p.log m ∧ f w = some b := by
  simp only [select, List.mem_filterMap]
  constructor
  · intro h
    obtain ⟨a, ha, hb⟩ := h
    cases a with
    | read i => cases hb
    | note w => exact ⟨w, ha, hb⟩
  · intro h
    obtain ⟨w, hw, hb⟩ := h
    exact ⟨_, hw, hb⟩

theorem select_eq_nil {P : Access ι ω → Prop} {p : Probe ι ρ ω α} (h : p.Always P m)
    (hf : ∀ w, P (.note w) → f w = none) : p.select f m = [] := by
  apply List.eq_nil_iff_forall_not_mem.mpr
  intro b hb
  obtain ⟨w, hw, hfw⟩ := mem_select.mp hb
  rw [hf w (h _ hw)] at hfw
  cases hfw

end Select
end Probe
end HwMon
