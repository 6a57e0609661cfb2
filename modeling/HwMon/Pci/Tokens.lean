import HwMon.Lib.Hex
import HwMon.Lib.Search

/-!
# Tokens of a hardware ID

`extract_hex_token` of `pci_enum_windows.c` on the bytes of its strings. It takes
all that `strtoul` takes, and the caller cuts the number to its field.
-/

namespace HwMon
set_option autoImplicit false

/-- The result and `*out` afterwards. -/
def extractHexToken (hwid key : List UInt8) (out : UInt32) : Bool × UInt32 :=
  match afterSub key hwid with
  | none => (false, out)
  | some p =>
    match strtoul16 p with
    | none => (false, out)
    | some v => (true, v)

/-- A token is accepted when the first occurrence of the key is followed at once by
hexadecimal digits whose value fits the field. -/
structure TokenExact (bits : Nat) (hwid key : List UInt8) (out : UInt32) : Prop where
  accepts : (extractHexToken hwid key out).1 = true ↔
    ∃ p ∈ afterSub key hwid, hexRun p ≠ [] ∧ hexValue (hexRun p) < 2 ^ bits
  value : ∀ p ∈ afterSub key hwid, (extractHexToken hwid key out).1 = true →
    (extractHexToken hwid key out).2.toNat = hexValue (hexRun p)
  untouched : (extractHexToken hwid key out).1 = false → (extractHexToken hwid key out).2 = out

/-- What `strtoul` reads behind the key is the token: no digit follows white space and a
sign where none follows at once, what `0x` hides is zero, and the value fits. -/
def PlainToken (bits : Nat) (p : List UInt8) : Prop :=
  if hexRun p = [] then hexRun (skipSign (p.dropWhile isspace)).2 = []
  else if skipPrefix p = p then hexValue (hexRun p) < 2 ^ min bits 32
  else hexValue (hexRun (skipPrefix p)) = 0

instance (bits : Nat) (p : List UInt8) : Decidable (PlainToken bits p) :=
  inferInstanceAs (Decidable (ite _ _ _))

section Exact
variable {bits : Nat} {hwid key p : List UInt8} {out : UInt32}

theorem extractHexToken_none (out : UInt32) (h : afterSub key hwid = none) :
    extractHexToken hwid key out = (false, out) := by
  rw [extractHexToken, h]

theorem extractHexToken_some (out : UInt32) (h : afterSub key hwid = some p) :
    extractHexToken hwid key out = match strtoul16 p with
    | none => (false, out)
    | some v => (true, v) := by
  rw [extractHexToken, h]

theorem tokenExact_none (h : afterSub key hwid = none) : TokenExact bits hwid key out := by
  have hcode := extractHexToken_none out h
  refine ⟨?_, ?_, fun _ => congrArg Prod.snd hcode⟩
  · rw [hcode, h]
    simp
  · intro p hp
    rw [h] at hp
    cases hp

/-- Where no digit follows the key, the token must be refused. -/
theorem tokenExact_refused (h : afterSub key hwid = some p) (hp : hexRun p = []) :
    TokenExact bits hwid key out ↔ strtoul16 p = none := by
  have hcode := extractHexToken_some out h
  constructor
  · intro hexact
    cases hv : strtoul16 p with
    | none => rfl
    | some v =>
      rw [hv] at hcode
      obtain ⟨q, hq, hne, _⟩ := hexact.accepts.mp (congrArg Prod.fst hcode)
      obtain rfl : p = q := Option.some.inj (h.symm.trans hq)
      exact absurd hp hne
  · intro hv
    rw [hv] at hcode
    refine ⟨?_, ?_, fun _ => congrArg Prod.snd hcode⟩
    · rw [hcode]
      refine iff_of_false Bool.false_ne_true fun hex => ?_
      obtain ⟨q, hq, hne, _⟩ := hex
      obtain rfl : p = q := Option.some.inj (h.symm.trans hq)
      exact hne hp
    · intro q _ htrue
      rw [hcode] at htrue
      cases htrue

/-- Where digits follow the key, the token must fit and be what `strtoul` reads. -/
theorem tokenExact_accepted (h : afterSub key hwid = some p) (hp : hexRun p ≠ []) {v : UInt32}
    (hv : strtoul16 p = some v) : TokenExact bits hwid key out ↔
      hexValue (hexRun p) < 2 ^ bits ∧ v.toNat = hexValue (hexRun p) := by
  have hcode := extractHexToken_some out h
  rw [hv] at hcode
  constructor
  · intro hexact
    obtain ⟨q, hq, _, hfits⟩ := hexact.accepts.mp (congrArg Prod.fst hcode)
    obtain rfl : p = q := Option.some.inj (h.symm.trans hq)
    have hvalue := hexact.value p h (congrArg Prod.fst hcode)
    rw [hcode] at hvalue
    exact ⟨hfits, hvalue⟩
  · intro hfits
    refine ⟨?_, ?_, ?_⟩
    · rw [hcode]
      exact iff_of_true rfl ⟨p, h, hp, hfits.1⟩
    · intro q hq _
      obtain rfl : p = q := Option.some.inj (h.symm.trans hq)
      rw [hcode]
      exact hfits.2
    · intro hfalse
      rw [hcode] at hfalse
      cases hfalse

theorem saturated_toNat (n : Nat) :
    (if 2 ^ 32 ≤ n then ulongMax else UInt32.ofNat n).toNat = n ↔ n < 2 ^ 32 := by
  split
  · rename_i hbig
    have hmax : ulongMax.toNat = 2 ^ 32 - 1 := rfl
    rw [hmax]
    omega
  · rename_i hsmall
    rw [UInt32.toNat_ofNat', Nat.mod_eq_of_lt (by omega)]
    exact iff_of_true rfl (Nat.not_le.mp hsmall)

theorem tokenExact_iff_plain (h : afterSub key hwid = some p) :
    TokenExact bits hwid key out ↔ PlainToken bits p := by
  rw [PlainToken]
  split
  · rename_i hp
    rw [tokenExact_refused h hp, strtoul16_eq_none_iff]
  rename_i hp
  rw [tokenExact_accepted h hp (strtoul16_of_digit hp)]
  by_cases hskip : skipPrefix p = p
  · rw [if_pos hskip, hskip, saturated_toNat]
    rcases Nat.le_total bits 32 with hle | hle
    · rw [Nat.min_eq_left hle]
      exact and_iff_left_of_imp fun hlt =>
        Nat.lt_of_lt_of_le hlt (Nat.pow_le_pow_right Nat.two_pos hle)
    · rw [Nat.min_eq_right hle]
      exact and_iff_right_of_imp fun hlt =>
        Nat.lt_of_lt_of_le hlt (Nat.pow_le_pow_right Nat.two_pos hle)
  · rw [if_neg hskip]
    obtain ⟨x, d, r, rfl, hx, _, _⟩ := (skipPrefix_cases p).resolve_left hskip
    have hrun : hexRun (48 :: x :: d :: r) = [48] := by
      rw [hexRun_cons rfl]
      rcases hx with rfl | rfl
      · rw [hexRun_cons_of_not rfl]
      · rw [hexRun_cons_of_not rfl]
    have hzero : hexValue [48] = 0 := rfl
    rw [hrun, hzero, and_iff_right (Nat.two_pow_pos bits)]
    split
    · rename_i hbig
      have hmax : ulongMax.toNat = 2 ^ 32 - 1 := rfl
      omega
    · rename_i hsmall
      rw [UInt32.toNat_ofNat', Nat.mod_eq_of_lt (Nat.not_le.mp hsmall)]

end Exact
end HwMon
