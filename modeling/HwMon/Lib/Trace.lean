import Mathlib.Data.List.Basic

/-!
# What holds at every place of a trace

`Everywhere Q l` says that `Q` relates each element of `l` to what comes before
it and to what comes after it. When `Q` survives more events on either side, it
goes from the pieces of a trace to the whole trace.
-/

namespace HwMon
set_option autoImplicit false

variable {α β : Type} {Q : List α → α → List α → Prop}

def Everywhere (Q : List α → α → List α → Prop) (l : List α) : Prop :=
  ∀ pre x post, l = pre ++ x :: post → Q pre x post

/-- More events before and after do not matter. -/
def Extends (Q : List α → α → List α → Prop) : Prop :=
  ∀ pre x post, Q pre x post → ∀ front back, Q (front ++ pre) x (post ++ back)

namespace Everywhere

theorem nil : Everywhere Q [] := by
  intro pre x post h
  exact absurd h.symm (List.append_ne_nil_of_right_ne_nil _ (List.cons_ne_nil _ _))

theorem cons_iff {a : α} {l : List α} : Everywhere Q (a :: l) ↔
    Q [] a l ∧ Everywhere (fun pre x post => Q (a :: pre) x post) l := by
  constructor
  · intro h
    refine ⟨h [] a l rfl, ?_⟩
    intro pre x post hl
    exact h (a :: pre) x post (congrArg (a :: ·) hl)
  · intro h pre x post hl
    obtain ⟨hhead, htail⟩ := h
    cases pre with
    | nil =>
      obtain ⟨rfl, rfl⟩ := List.cons.inj hl
      exact hhead
    | cons b pre =>
      obtain ⟨rfl, hrest⟩ := List.cons.inj hl
      exact htail pre x post hrest

theorem append (hQ : Extends Q) {l r : List α} (hl : Everywhere Q l) (hr : Everywhere Q r) :
    Everywhere Q (l ++ r) := by
  intro pre x post h
  rcases List.append_eq_append_iff.mp h with ⟨mid, rfl, hmid⟩ | ⟨mid, rfl, hmid⟩
  · have hplace := hQ mid x post (hr mid x post hmid) l []
    rwa [List.append_nil] at hplace
  · cases mid with
    | nil =>
      have hplace := hQ [] x post (hr [] x post hmid.symm) pre []
      rwa [List.append_nil, List.append_nil] at hplace
    | cons b mid =>
      obtain ⟨rfl, rfl⟩ := List.cons.inj hmid
      have hplace := hQ pre x mid (hl pre x mid rfl) [] r
      rwa [List.nil_append] at hplace

theorem cons (hQ : Extends Q) {a : α} {l : List α} (ha : Q [] a l) (hl : Everywhere Q l) :
    Everywhere Q (a :: l) := by
  refine cons_iff.mpr ⟨ha, ?_⟩
  intro pre x post h
  have hplace := hQ pre x post (hl pre x post h) [a] []
  rwa [List.append_nil] at hplace

theorem flatMap (hQ : Extends Q) {f : β → List α} {bs : List β}
    (h : ∀ b ∈ bs, Everywhere Q (f b)) : Everywhere Q (bs.flatMap f) := by
  induction bs with
  | nil => exact nil
  | cons b bs ih =>
    rw [List.flatMap_cons]
    apply append hQ (h b List.mem_cons_self)
    apply ih
    intro c hc
    exact h c (List.mem_cons_of_mem b hc)

theorem of_forall {l : List α} (h : ∀ x ∈ l, ∀ pre post, Q pre x post) : Everywhere Q l := by
  intro pre x post hl
  apply h x
  rw [hl]
  exact List.mem_append_right pre List.mem_cons_self

end Everywhere
end HwMon
