import HwMon.Lib.Interleave

/-!
# Interleaved runs are sequential runs

The accesses that one thread makes in an interleaved run are the first accesses of its
task run alone, on an oracle that gives the answers the thread has got. This holds of
every task that never repeats a question, whatever the other threads do, so what is
known of every log of a task is known of the part that the thread has in every schedule.
-/

namespace HwMon
set_option autoImplicit false

section Questions
variable {ι ω : Type}

/-- The questions of some accesses, in order. -/
def questions (l : List (Access ι ω)) : List ι :=
  l.filterMap fun a => match a with
    | .read i => some i
    | .note _ => none

theorem mem_questions {i : ι} {l : List (Access ι ω)} : i ∈ questions l ↔ .read i ∈ l := by
  simp only [questions, List.mem_filterMap]
  constructor
  · intro h
    obtain ⟨a, ha, hi⟩ := h
    cases a with
    | read j =>
      cases hi
      exact ha
    | note w => cases hi
  · intro h
    exact ⟨_, h, rfl⟩

theorem getElem?_before {β : Type} {log : List β} {e x : β} {n : Nat}
    (h : (log ++ [e])[n]? = some x) (hne : x ≠ e) :
    log[n]? = some x ∧ (log ++ [e]).take n = log.take n := by
  have hn : n < log.length := by
    by_contra hge
    have hlt := (List.getElem?_eq_some_iff.mp h).1
    rw [List.length_append, List.length_singleton] at hlt
    have heq : n = log.length := by omega
    rw [heq, List.getElem?_concat_length] at h
    exact hne (Option.some.inj h).symm
  rw [List.getElem?_append_left hn] at h
  exact ⟨h, List.take_append_of_le_length (Nat.le_of_lt hn)⟩

end Questions

namespace Task
variable {ι : Type} {ρ : ι → Type} {ω α β : Type}

/-- The second task is what is left of the first one after the accesses in between, with
the answers of `m`. -/
inductive Reaches (m : ∀ i, ρ i) : Task ι ρ ω α → List (Access ι ω) → Task ι ρ ω α → Prop
  | refl (p : Task ι ρ ω α) : Reaches m p [] p
  | ask {p : Task ι ρ ω α} {l : List (Access ι ω)} {i : ι} {k : ρ i → Task ι ρ ω α}
      (h : Reaches m p l (.ask i k)) : Reaches m p (l ++ [.read i]) (k (m i))
  | note {p : Task ι ρ ω α} {l : List (Access ι ω)} {w : ω} {k : Task ι ρ ω α}
      (h : Reaches m p l (.note w k)) : Reaches m p (l ++ [.note w]) k

namespace Reaches
variable {m m' : ∀ i, ρ i} {p q : Task ι ρ ω α} {l : List (Access ι ω)}

theorem log (h : Reaches m p l q) : p.toProbe.log m = l ++ q.toProbe.log m := by
  induction h with
  | refl => rfl
  | ask _ ih =>
    rw [ih, toProbe, Probe.log_bind, Probe.log_ask, Probe.val_ask, List.append_assoc]
  | note _ ih => rw [ih, toProbe, Probe.log_bind, Probe.log_note, List.append_assoc]

theorem val (h : Reaches m p l q) : p.toProbe.val m = q.toProbe.val m := by
  induction h with
  | refl => rfl
  | ask _ ih => rw [ih, toProbe, Probe.val_bind, Probe.val_ask]
  | note _ ih => rw [ih, toProbe, Probe.val_bind]

theorem congr (h : Reaches m p l q) (agree : ∀ i, .read i ∈ l → m i = m' i) :
    Reaches m' p l q := by
  induction h with
  | refl => exact .refl _
  | @ask l i k _ ih =>
    have hi : m i = m' i := agree i (List.mem_append_right l List.mem_cons_self)
    rw [hi]
    exact .ask (ih fun j hj => agree j (List.mem_append_left _ hj))
  | note _ ih => exact .note (ih fun j hj => agree j (List.mem_append_left _ hj))

/-- A task that is done has made all accesses of its own run, and has its result. -/
theorem done {a : α} (h : Reaches m p l (.done a)) :
    p.toProbe.log m = l ∧ p.toProbe.val m = a := by
  refine ⟨?_, h.val⟩
  rw [h.log, toProbe, Probe.log_pure, List.append_nil]

end Reaches

theorem bind_bind {γ : Type} (g : β → Task ι ρ ω γ) (f : α → Task ι ρ ω β) (p : Task ι ρ ω α) :
    (p.bind f).bind g = p.bind fun a => (f a).bind g := by
  induction p with
  | done a => rfl
  | ask i k ih =>
    simp only [bind]
    congr 1
    exact funext ih
  | note w k ih =>
    simp only [bind]
    rw [ih]

/-- No question of the task is in `asked` or comes twice. -/
inductive AsksOnce : List ι → Task ι ρ ω α → Prop
  | done {asked : List ι} (a : α) : AsksOnce asked (.done a)
  | ask {asked : List ι} {i : ι} {k : ρ i → Task ι ρ ω α} (hfresh : i ∉ asked)
      (h : ∀ a, AsksOnce (asked ++ [i]) (k a)) : AsksOnce asked (.ask i k)
  | note {asked : List ι} {w : ω} {k : Task ι ρ ω α} (h : AsksOnce asked k) :
      AsksOnce asked (.note w k)

/-- A second part that asks nothing. -/
theorem AsksOnce.bind {f : α → Task ι ρ ω β} {asked : List ι} {p : Task ι ρ ω α}
    (h : AsksOnce asked p) (hf : ∀ a asked, AsksOnce asked (f a)) :
    AsksOnce asked (p.bind f) := by
  induction h with
  | done a => exact hf a _
  | ask hfresh _ ih => exact .ask hfresh ih
  | note _ ih => exact .note ih

theorem Within.bind {f : α → Task ι ρ ω β} {k n : Nat} {p : Task ι ρ ω α} (h : Within n p)
    (hf : ∀ a j, Within (k + j) (f a)) : Within (k + n) (p.bind f) := by
  induction h with
  | done a => exact hf a _
  | ask _ ih => exact .ask ih
  | note _ ih => exact .note ih

end Task

section Own
variable {τ β : Type} [DecidableEq τ]

/-- What thread `t` has in a trace. -/
def ownTrace (t : τ) (log : List (τ × β)) : List β :=
  (log.filter fun e => e.1 = t).map Prod.snd

variable {t u : τ} {log : List (τ × β)} {a : β}

theorem ownTrace_append (log' : List (τ × β)) :
    ownTrace t (log ++ log') = ownTrace t log ++ ownTrace t log' := by
  rw [ownTrace, List.filter_append, List.map_append]
  rfl

theorem ownTrace_self : ownTrace t (log ++ [(t, a)]) = ownTrace t log ++ [a] := by
  rw [ownTrace_append]
  simp [ownTrace]

theorem ownTrace_other (h : u ≠ t) : ownTrace t (log ++ [(u, a)]) = ownTrace t log := by
  rw [ownTrace_append]
  simp [ownTrace, h]

theorem mem_ownTrace : a ∈ ownTrace t log ↔ (t, a) ∈ log := by
  simp [ownTrace]

theorem questions_self {ι ω : Type} {i : ι} {log : List (τ × Access ι ω)} :
    questions (ownTrace t (log ++ [(t, .read i)])) = questions (ownTrace t log) ++ [i] := by
  rw [ownTrace_self, questions, List.filterMap_append]
  rfl

end Own

/-- A description of the shared state in terms of the accesses so far. -/
structure World.Tracks {τ ι : Type} {ρ : ι → Type} {ω σ : Type} (world : World τ ι ρ ω σ)
    (J : σ → List (τ × Access ι ω) → Prop) : Prop where
  ask : ∀ t i s log, J s log → J s (log ++ [(t, .read i)])
  note : ∀ t w s s' log, J s log → world.effect t s w = some s' →
    J s' (log ++ [(t, .note w)])

namespace Pool
variable {τ ι : Type} {ρ : ι → Type} {ω α σ : Type} [DecidableEq τ]
  {world : World τ ι ρ ω σ} {c : Pool τ ι ρ ω α σ}

theorem run_tracks {J : σ → List (τ × Access ι ω) → Prop} (hJ : world.Tracks J)
    (h : J c.shared c.trace) (schedule : List τ) :
    J (c.run world schedule).shared (c.run world schedule).trace := by
  apply run_invariant world (I := fun c => J c.shared c.trace) ?_ h schedule
  intro c t hc
  rcases step_cases world c t with hstep | ⟨i, k, -, hstep⟩ | ⟨w, k, s, -, heffect, hstep⟩
  · rw [hstep]
    exact hc
  · rw [hstep]
    exact hJ.ask t i c.shared c.trace hc
  · rw [hstep]
    exact hJ.note t w c.shared s c.trace hc heffect

/-- The accesses of a thread are those of its task alone on the oracle `m`, which gives
allowed answers where the thread has asked and those of `rest` elsewhere. -/
structure AloneOn (Allowed : List (τ × Access ι ω) → τ → ∀ i, ρ i → Prop) (rest m : ∀ i, ρ i)
    (start : Task ι ρ ω α) (t : τ) (p : Task ι ρ ω α) (log : List (τ × Access ι ω)) : Prop where
  reaches : start.Reaches m (ownTrace t log) p
  answers : ∀ n i, log[n]? = some (t, .read i) → Allowed (log.take n) t i (m i)
  elsewhere : ∀ i, .read i ∉ ownTrace t log → m i = rest i

section Alone
variable {Allowed : List (τ × Access ι ω) → τ → ∀ i, ρ i → Prop}
  {rest m : ∀ i, ρ i} {start p : Task ι ρ ω α} {t u : τ} {log : List (τ × Access ι ω)}

theorem AloneOn.ask [DecidableEq ι] {i : ι} {k : ρ i → Task ι ρ ω α} {a : ρ i}
    (h : AloneOn Allowed rest m start t (.ask i k) log) (hfresh : .read i ∉ ownTrace t log)
    (ha : Allowed log t i a) :
    AloneOn Allowed rest (Function.update m i a) start t (k a) (log ++ [(t, .read i)]) := by
  have hkeep : ∀ j, .read j ∈ ownTrace t log → m j = Function.update m i a j := by
    intro j hj
    rw [Function.update_of_ne]
    intro heq
    exact hfresh (heq ▸ hj)
  have hself : Function.update m i a i = a := Function.update_self i a m
  refine ⟨?_, ?_, ?_⟩
  · have hstep := (h.reaches.congr hkeep).ask
    rwa [hself, ← ownTrace_self] at hstep
  · intro n j hj
    by_cases hji : j = i
    · subst hji
      rw [hself]
      have hn : n = log.length := by
        by_contra hne
        have hlt := (List.getElem?_eq_some_iff.mp hj).1
        rw [List.length_append, List.length_singleton] at hlt
        rw [List.getElem?_append_left (by omega)] at hj
        exact hfresh (mem_ownTrace.mpr (List.mem_of_getElem? hj))
      rw [hn, List.take_left]
      exact ha
    · obtain ⟨hj', htake⟩ := getElem?_before hj (by simpa using hji)
      rw [htake, Function.update_of_ne hji]
      exact h.answers n j hj'
  · intro j hj
    rw [ownTrace_self, List.mem_append, not_or] at hj
    have hji : j ≠ i := fun heq => hj.2 (heq ▸ List.mem_singleton.mpr rfl)
    rw [Function.update_of_ne hji]
    exact h.elsewhere j hj.1

theorem AloneOn.note {w : ω} {k : Task ι ρ ω α}
    (h : AloneOn Allowed rest m start t (.note w k) log) :
    AloneOn Allowed rest m start t k (log ++ [(t, .note w)]) := by
  refine ⟨?_, ?_, ?_⟩
  · rw [ownTrace_self]
    exact h.reaches.note
  · intro n i hi
    obtain ⟨hi', htake⟩ := getElem?_before hi (by simp)
    rw [htake]
    exact h.answers n i hi'
  · intro i hi
    rw [ownTrace_self] at hi
    exact h.elsewhere i fun hmem => hi (List.mem_append_left _ hmem)

theorem AloneOn.other (h : AloneOn Allowed rest m start t p log) (hne : u ≠ t)
    (a : Access ι ω) : AloneOn Allowed rest m start t p (log ++ [(u, a)]) := by
  have hown : ownTrace t (log ++ [(u, a)]) = ownTrace t log := ownTrace_other hne
  refine ⟨?_, ?_, ?_⟩
  · rw [hown]
    exact h.reaches
  · intro n i hi
    obtain ⟨hi', htake⟩ := getElem?_before hi fun heq => hne (congrArg Prod.fst heq).symm
    rw [htake]
    exact h.answers n i hi'
  · rw [hown]
    exact h.elsewhere

end Alone

section Runs
variable [DecidableEq ι] {Allowed : List (τ × Access ι ω) → τ → ∀ i, ρ i → Prop}
  {J : σ → List (τ × Access ι ω) → Prop} {rest : τ → ∀ i, ρ i} {start : τ → Task ι ρ ω α}

/-- Every thread runs as it would alone, and the shared state is as `J` has it. -/
def Alone (Allowed : List (τ × Access ι ω) → τ → ∀ i, ρ i → Prop)
    (J : σ → List (τ × Access ι ω) → Prop) (rest : τ → ∀ i, ρ i) (start : τ → Task ι ρ ω α)
    (t : τ) (p : Task ι ρ ω α) (s : σ) (log : List (τ × Access ι ω)) : Prop :=
  J s log ∧ p.AsksOnce (questions (ownTrace t log)) ∧
    ∃ m, AloneOn Allowed (rest t) m (start t) t p log

theorem alone_outline (hJ : world.Tracks J)
    (hallowed : ∀ t s log i, J s log →
      Allowed log t i (world.answer t log.length s i)) :
    Outline world (Alone Allowed J rest start) := by
  refine ⟨?_, ?_, ?_, ?_⟩
  · intro t i k s log h
    obtain ⟨hs, honce, m, halone⟩ := h
    cases honce with
    | ask hfresh hk =>
      refine ⟨hJ.ask t i s log hs, ?_, _,
        halone.ask (fun hmem => hfresh (mem_questions.mpr hmem)) (hallowed t s log i hs)⟩
      rw [questions_self]
      exact hk _
  · intro t w k s s' log h heffect
    obtain ⟨hs, honce, m, halone⟩ := h
    cases honce with
    | note hk =>
      refine ⟨hJ.note t w s s' log hs heffect, ?_, m, halone.note⟩
      rw [ownTrace_self, questions, List.filterMap_append]
      simpa [questions] using hk
  · intro t u p i s log hne h
    obtain ⟨hs, honce, m, halone⟩ := h
    refine ⟨hJ.ask u i s log hs, ?_, m, halone.other hne _⟩
    rw [ownTrace_other hne]
    exact honce
  · intro t u p w k s s' log hne h _ heffect
    obtain ⟨hs, honce, m, halone⟩ := h
    refine ⟨hJ.note u w s s' log hs heffect, ?_, m, halone.other hne _⟩
    rw [ownTrace_other hne]
    exact honce

variable (rest) in
/-- In every schedule a thread does what it does alone on some oracle. -/
theorem run_alone (hJ : world.Tracks J)
    (hallowed : ∀ t s log i, J s log →
      Allowed log t i (world.answer t log.length s i))
    (hstart : c.trace = []) (hshared : J c.shared []) (honce : ∀ t, (c.task t).AsksOnce [])
    (schedule : List τ) (t : τ) :
    ∃ m, AloneOn Allowed (rest t) m (c.task t) t ((c.run world schedule).task t)
      (c.run world schedule).trace := by
  have hinit : c.Annotated (Alone Allowed J rest c.task) := by
    intro u
    rw [hstart]
    refine ⟨hshared, honce u, rest u, .refl _, ?_, fun i _ => rfl⟩
    intro n i hi
    rw [List.getElem?_nil] at hi
    cases hi
  exact ((alone_outline hJ hallowed).run hinit schedule t).2.2

end Runs
end Pool
end HwMon
