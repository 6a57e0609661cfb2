import HwMon.Lib.Bytes

/-!
# Trimmed copies

`trim_copy` of `storage_enum_windows.c`, for destinations of at least one byte. Its
value is what it writes from the start of the destination on.
-/

namespace HwMon
set_option autoImplicit false

section Code
variable {ω : Type}

/-- `while (src_len > 0 && (src[src_len - 1] == ' ' || src[src_len - 1] == '\0')) src_len--;` -/
def trimEnd (src : Nat) : Nat → ByteProbe ω Nat
  | 0 => pure 0
  | srcLen + 1 => do
    let b ← .ask (src + srcLen)
    if b = 32 ∨ b = 0 then trimEnd src srcLen else pure (srcLen + 1)

/-- `while (start < src_len && src[start] == ' ') start++;` with the bytes left. -/
def trimStart (src : Nat) : Nat → ByteProbe ω Nat
  | 0 => pure 0
  | left + 1 => do
    let b ← .ask src
    if b = 32 then do
      let start ← trimStart (src + 1) left
      pure (start + 1)
    else pure 0

def trimCopy (dstSize src srcLen : Nat) : ByteProbe ω (List UInt8) := do
  let srcLen ← trimEnd src srcLen
  let start ← trimStart src srcLen
  let n := srcLen - start
  let n := if dstSize ≤ n then dstSize - 1 else n
  let text ← readBytes (src + start) n
  pure (text ++ [0])

end Code

section Reads
variable {ω : Type} {P : Access Nat ω → Prop} {m : Mem} {src srcLen : Nat}

theorem trimEnd_succ (src srcLen : Nat) : (trimEnd src (srcLen + 1) : ByteProbe ω _) = (do
    let b ← .ask (src + srcLen)
    if b = 32 ∨ b = 0 then trimEnd src srcLen else pure (srcLen + 1)) := rfl

theorem trimStart_succ (src left : Nat) : (trimStart src (left + 1) : ByteProbe ω _) = (do
    let b ← .ask src
    if b = 32 then do
      let start ← trimStart (src + 1) left
      pure (start + 1)
    else pure 0) := rfl

theorem trimEnd_le (src srcLen : Nat) : (trimEnd src srcLen : ByteProbe ω _).val m ≤ srcLen := by
  induction srcLen with
  | zero => exact Nat.le_refl 0
  | succ srcLen ih =>
    simp only [trimEnd_succ, ↓Probe.val_bind, ↓Probe.val_ite, Probe.val_pure]
    split
    · exact Nat.le_succ_of_le ih
    · exact Nat.le_refl _

theorem trimStart_le (src left : Nat) : (trimStart src left : ByteProbe ω _).val m ≤ left := by
  induction left generalizing src with
  | zero => exact Nat.le_refl 0
  | succ left ih =>
    simp only [trimStart_succ, ↓Probe.val_bind, ↓Probe.val_ite, Probe.val_pure]
    split
    · exact Nat.succ_le_succ (ih (src + 1))
    · exact Nat.zero_le _

theorem always_trimEnd (h : ∀ i, src ≤ i → i < src + srcLen → P (.read i)) :
    (trimEnd src srcLen).Always P m := by
  induction srcLen with
  | zero => exact Probe.always_pure _
  | succ srcLen ih =>
    simp only [trimEnd_succ, Probe.always_bind, Probe.always_ask]
    refine ⟨h _ (Nat.le_add_right _ _) (by omega), Probe.always_ite (fun _ => ?_) fun _ => ?_⟩
    · apply ih
      intro i hle hlt
      exact h i hle (by omega)
    · exact Probe.always_pure _

theorem always_trimStart (h : ∀ i, src ≤ i → i < src + srcLen → P (.read i)) :
    (trimStart src srcLen).Always P m := by
  induction srcLen generalizing src with
  | zero => exact Probe.always_pure _
  | succ left ih =>
    simp only [trimStart_succ, Probe.always_bind, Probe.always_ask]
    refine ⟨h _ (Nat.le_refl _) (by omega), Probe.always_ite (fun _ => ?_) fun _ => ?_⟩
    · rw [Probe.always_bind]
      refine ⟨?_, Probe.always_pure _⟩
      apply ih
      intro i hle hlt
      exact h i (by omega) (by omega)
    · exact Probe.always_pure _

/-- The copy reads its source only. -/
theorem always_trimCopy (dstSize : Nat) (h : ∀ i, src ≤ i → i < src + srcLen → P (.read i)) :
    (trimCopy dstSize src srcLen).Always P m := by
  have hend := trimEnd_le (ω := ω) (m := m) src srcLen
  simp only [trimCopy, Probe.always_bind, Probe.always_pure, and_true]
  generalize (trimEnd src srcLen : ByteProbe ω _).val m = len at hend
  have hstart := trimStart_le (ω := ω) (m := m) src len
  refine ⟨always_trimEnd h, always_trimStart fun i hle hlt => h i hle (by omega), ?_⟩
  apply always_readBytes
  intro i hle hlt
  refine h i (by omega) ?_
  split at hlt
  · omega
  · omega

end Reads
end HwMon
