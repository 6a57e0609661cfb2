import HwMon.Lib.Sequential
import HwMon.Lib.Trace
import Mathlib.Data.List.Induction

/-!
# A register behind a lock

Threads acquire and release one lock and write one register. If the lock is only granted
while it is free, and every thread releases and writes only while it has the lock, then
the thread that has the lock by its own accesses is the holder, and the register is what
it has written last.
-/

namespace HwMon
set_option autoImplicit false

inductive LockOp where
  | acquire
  | release
  | other
  deriving DecidableEq, Repr

/-- Which events acquire and release the lock, what they write to the register, and which
of them need the lock. -/
structure Monitor (α β : Type) where
  op : α → LockOp
  write : α → Option β
  guarded : α → Bool
  writes_guarded : ∀ a, (write a).isSome → guarded a = true

namespace Monitor
variable {τ α β : Type} (M : Monitor α β)

def stepHolder (o : Option τ) (e : τ × α) : Option τ :=
  match M.op e.2 with
  | .acquire => some e.1
  | .release => none
  | .other => o

/-- Who has the lock after the events of a trace. -/
def holder (log : List (τ × α)) : Option τ := log.foldl M.stepHolder none

/-- The register after the events of a trace. -/
def register (w : β) (log : List (τ × α)) : β :=
  log.foldl (fun v e => (M.write e.2).getD v) w

/-- What one thread knows from its own events: whether it has the lock, and what it has
written since it got it. -/
def stepOwn (s : Option (Option β)) (a : α) : Option (Option β) :=
  match M.op a with
  | .acquire => some none
  | .release => none
  | .other => s.map fun v => (M.write a).or v

def own (l : List α) : Option (Option β) := l.foldl M.stepOwn none

/-- The lock is granted while it is free. -/
def Exclusive (log : List (τ × α)) : Prop :=
  Everywhere (fun pre e _ => M.op e.2 = .acquire → M.holder pre = none) log

/-- Every event of a thread that starts at `s` is as `C` says for the point it is made at. -/
def Along (C : Option (Option β) → α → Prop) (s : Option (Option β)) (l : List α) : Prop :=
  Everywhere (fun pre a _ => C (pre.foldl M.stepOwn s) a) l

/-- The lock is acquired by a thread that does not have it; releasing it and what is guarded
need it. -/
def Allows (s : Option (Option β)) (a : α) : Prop :=
  if M.op a = .acquire then s = none else M.op a = .release ∨ M.guarded a = true → s.isSome

abbrev Disciplined (l : List α) : Prop := M.Along M.Allows none l

section Append
variable {M} {log : List (τ × α)} {l : List α}

theorem holder_append (e : τ × α) : M.holder (log ++ [e]) = M.stepHolder (M.holder log) e :=
  List.foldl_append

theorem register_append (w : β) (e : τ × α) :
    M.register w (log ++ [e]) = (M.write e.2).getD (M.register w log) :=
  List.foldl_append

theorem own_append (a : α) : M.own (l ++ [a]) = M.stepOwn (M.own l) a := List.foldl_append

theorem Exclusive.before {log' : List (τ × α)} (h : M.Exclusive (log ++ log')) :
    M.Exclusive log := by
  intro pre e post hlog
  apply h pre e (post ++ log')
  rw [hlog, List.append_assoc, List.cons_append]

theorem Along.before {C : Option (Option β) → α → Prop} {s : Option (Option β)} {l' : List α}
    (h : M.Along C s (l ++ l')) : M.Along C s l := by
  intro pre e post hl
  apply h pre e (post ++ l')
  rw [hl, List.append_assoc, List.cons_append]

theorem Exclusive.last {u : τ} {a : α} (h : M.Exclusive (log ++ [(u, a)])) :
    M.op a = .acquire → M.holder log = none :=
  h log (u, a) [] rfl

theorem Along.last {C : Option (Option β) → α → Prop} {a : α} (h : M.Along C none (l ++ [a])) :
    C (M.own l) a :=
  h l a [] rfl

theorem along_nil (C : Option (Option β) → α → Prop) (s : Option (Option β)) : M.Along C s [] :=
  Everywhere.nil

theorem along_cons {C : Option (Option β) → α → Prop} {s : Option (Option β)} {a : α} :
    M.Along C s (a :: l) ↔ C s a ∧ M.Along C (M.stepOwn s a) l :=
  Everywhere.cons_iff

variable (M) in
/-- Neither the lock nor the register is concerned. -/
def Quiet (a : α) : Prop := M.op a = .other ∧ M.guarded a = false

theorem Quiet.write {a : α} (h : M.Quiet a) : M.write a = none := by
  cases hwrite : M.write a with
  | none => rfl
  | some v =>
    have hguard := M.writes_guarded a (by rw [hwrite]; rfl)
    rw [h.2] at hguard
    cases hguard

theorem Quiet.stepOwn {a : α} (h : M.Quiet a) (s : Option (Option β)) : M.stepOwn s a = s := by
  rw [Monitor.stepOwn, h.1, h.write]
  cases s <;> rfl

theorem Quiet.allows {a : α} (h : M.Quiet a) (s : Option (Option β)) : M.Allows s a := by
  rw [Allows, h.1, h.2]
  simp

theorem along_quiet {C : Option (Option β) → α → Prop} {s : Option (Option β)} {front : List α}
    (hfront : ∀ a ∈ front, M.Quiet a) (hC : ∀ a, M.Quiet a → C s a) (h : M.Along C s l) :
    M.Along C s (front ++ l) := by
  induction front with
  | nil => exact h
  | cons a front ih =>
    have ha := hfront a List.mem_cons_self
    refine along_cons.mpr ⟨hC a ha, ?_⟩
    rw [ha.stepOwn]
    exact ih fun b hb => hfront b (List.mem_cons_of_mem a hb)

theorem own_quiet {front : List α} (hfront : ∀ a ∈ front, M.Quiet a) (s : Option (Option β)) :
    front.foldl M.stepOwn s = s := by
  induction front with
  | nil => rfl
  | cons a front ih =>
    rw [List.foldl_cons, (hfront a List.mem_cons_self).stepOwn]
    exact ih fun b hb => hfront b (List.mem_cons_of_mem a hb)

theorem along_append {C : Option (Option β) → α → Prop} {s : Option (Option β)} {l' : List α} :
    M.Along C s (l ++ l') ↔ M.Along C s l ∧ M.Along C (l.foldl M.stepOwn s) l' := by
  induction l generalizing s with
  | nil => exact (and_iff_right (along_nil C s)).symm
  | cons a l ih => rw [List.cons_append, along_cons, along_cons, ih, and_assoc, List.foldl_cons]

theorem Exclusive.append {u : τ} {a : α} (h : M.Exclusive log)
    (ha : M.op a = .acquire → M.holder log = none) : M.Exclusive (log ++ [(u, a)]) := by
  intro pre e post hlog
  rcases List.eq_nil_or_concat post with rfl | ⟨post, last, rfl⟩
  · obtain ⟨rfl, rfl⟩ := List.append_inj' hlog rfl |>.imp_right List.singleton_inj.mp
    exact ha
  · rw [List.concat_eq_append, ← List.cons_append, ← List.append_assoc] at hlog
    exact h pre e post (List.append_inj' hlog rfl).1

end Append

variable {M} [DecidableEq τ]

/-- What the events of a thread say about the lock and the register is true. -/
def Agrees (M : Monitor α β) (w : β) (log : List (τ × α)) (t : τ) : Prop :=
  match M.own (ownTrace t log) with
  | none => M.holder log ≠ some t
  | some none => M.holder log = some t
  | some (some v) => M.holder log = some t ∧ M.register w log = v

section Agreement
variable {w v : β} {log : List (τ × α)} {t u : τ} {a : α}

theorem Agrees.holder (h : M.Agrees w log t) (hown : (M.own (ownTrace t log)).isSome) :
    M.holder log = some t := by
  unfold Agrees at h
  cases hcase : M.own (ownTrace t log) with
  | none =>
    rw [hcase] at hown
    cases hown
  | some v =>
    rw [hcase] at h
    cases v with
    | none => exact h
    | some v => exact h.1

theorem Agrees.register (h : M.Agrees w log t) (hown : M.own (ownTrace t log) = some (some v)) :
    M.register w log = v := by
  unfold Agrees at h
  rw [hown] at h
  exact h.2

theorem agrees_of_none (hown : M.own (ownTrace t log) = none) (h : M.holder log ≠ some t) :
    M.Agrees w log t := by
  unfold Agrees
  rwa [hown]

/-- Another thread that acquires, releases or writes does so without this one. -/
theorem Agrees.alone (h : M.Agrees w log t) (h' : M.holder log ≠ some t) :
    M.own (ownTrace t log) = none := by
  cases hcase : M.own (ownTrace t log) with
  | none => rfl
  | some v => exact absurd (h.holder (by rw [hcase]; rfl)) h'

/-- The thread whose event it is. -/
theorem Agrees.self (h : M.Agrees w log u) : M.Agrees w (log ++ [(u, a)]) u := by
  unfold Agrees
  rw [ownTrace_self, own_append, holder_append, register_append, stepOwn, stepHolder]
  cases hop : M.op a with
  | acquire => exact rfl
  | release => exact fun h => (nomatch h)
  | other =>
    cases hown : M.own (ownTrace u log) with
    | none =>
      unfold Agrees at h
      rw [hown] at h
      exact h
    | some v =>
      have hholder := h.holder (by rw [hown]; rfl)
      cases hwrite : M.write a with
      | some x => exact ⟨hholder, rfl⟩
      | none =>
        cases v with
        | none => exact hholder
        | some v => exact ⟨hholder, h.register hown⟩

/-- The other threads. -/
theorem Agrees.others (h : M.Agrees w log t) (hu : M.Agrees w log u) (hne : u ≠ t)
    (hfree : M.op a = .acquire → M.holder log = none)
    (hdisc : M.Allows (M.own (ownTrace u log)) a) :
    M.Agrees w (log ++ [(u, a)]) t := by
  have hnot : some u ≠ some t := fun heq => hne (Option.some.inj heq)
  have hown : ownTrace t (log ++ [(u, a)]) = ownTrace t log := ownTrace_other hne
  have hholder : M.holder (log ++ [(u, a)]) = M.stepHolder (M.holder log) (u, a) :=
    holder_append _
  cases hop : M.op a with
  | acquire =>
    apply agrees_of_none
    · rw [hown]
      apply h.alone
      rw [hfree hop]
      exact fun h => (nomatch h)
    · rw [hholder, stepHolder, hop]
      exact hnot
  | release =>
    rw [Allows, if_neg (by rw [hop]; exact LockOp.noConfusion)] at hdisc
    have howner := hu.holder (hdisc (.inl hop))
    apply agrees_of_none
    · rw [hown]
      apply h.alone
      rwa [howner]
    · rw [hholder, stepHolder, hop]
      exact fun h => (nomatch h)
  | other =>
    rw [Allows, if_neg (by rw [hop]; exact LockOp.noConfusion)] at hdisc
    have hsame : M.holder (log ++ [(u, a)]) = M.holder log := by
      rw [hholder, stepHolder, hop]
    cases hwrite : M.write a with
    | some x =>
      have hguard := M.writes_guarded a (by rw [hwrite]; rfl)
      have howner := hu.holder (hdisc (.inr hguard))
      apply agrees_of_none
      · rw [hown]
        apply h.alone
        rwa [howner]
      · rw [hsame, howner]
        exact hnot
    | none =>
      have hregister : M.register w (log ++ [(u, a)]) = M.register w log := by
        rw [register_append, hwrite]
        rfl
      unfold Agrees
      rw [hown, hsame, hregister]
      exact h

end Agreement

/-- What each thread can tell from its own events is so. -/
theorem agrees {log : List (τ × α)} (hex : M.Exclusive log)
    (hdisc : ∀ t, M.Disciplined (ownTrace t log)) (w : β) (t : τ) : M.Agrees w log t := by
  induction log using List.reverseRecOn generalizing t with
  | nil => exact fun h => (nomatch h)
  | append_singleton log e ih =>
    obtain ⟨u, a⟩ := e
    have hown : ∀ t, M.Disciplined (ownTrace t log) := by
      intro t
      by_cases htu : u = t
      · subst htu
        have hlast := hdisc u
        rw [ownTrace_self] at hlast
        exact hlast.before
      · have hkeep := hdisc t
        rwa [ownTrace_other htu] at hkeep
    have hu := hdisc u
    rw [ownTrace_self] at hu
    by_cases htu : u = t
    · subst htu
      exact (ih hex.before hown u).self
    · exact (ih hex.before hown t).others (ih hex.before hown u) htu hex.last hu.last

theorem agrees_before {log log' : List (τ × α)} (hex : M.Exclusive (log ++ log'))
    (hdisc : ∀ t, M.Disciplined (ownTrace t (log ++ log'))) (w : β) (t : τ) :
    M.Agrees w log t := by
  apply agrees hex.before
  intro u
  have h := hdisc u
  rw [ownTrace_append] at h
  exact h.before

end Monitor
end HwMon
