import Mathlib.Data.List.Basic

/-!
# Formatted output

`printf` on bytes, with the conversions `u`, `d`, `X`, `s` and `f`. An argument of
another type than its conversion asks for, a conversion that has none and a string
without terminator are faults. What a floating-point number looks like is left to a
parameter.
-/

namespace HwMon
set_option autoImplicit false

/-- What stands between `%` and its letter. -/
structure FormatSpec where
  left : Bool := false
  zeros : Bool := false
  width : Nat := 0
  precision : Option Nat := none
  longs : Nat := 0
  deriving DecidableEq, Repr

inductive FormatPiece where
  | text (b : UInt8)
  | conversion (spec : FormatSpec) (letter : UInt8)
  deriving DecidableEq, Repr

def FormatSpec.digit (spec : FormatSpec) (d : Nat) : FormatSpec :=
  match spec.precision with
  | some n => { spec with precision := some (10 * n + d) }
  | none =>
    if d = 0 ∧ spec.width = 0 then { spec with zeros := true }
    else { spec with width := 10 * spec.width + d }

/-- The pieces of a format; `spec` is what stands behind the last `%`, if its letter is
still to come. None for a conversion that is not known. -/
def formatPieces (spec : Option FormatSpec) : List UInt8 → Option (List FormatPiece)
  | [] => if spec.isNone then some [] else none
  | b :: format =>
    match spec with
    | none =>
      if b = 37 then formatPieces (some {}) format
      else (formatPieces none format).map (FormatPiece.text b :: ·)
    | some spec =>
      if b = 37 then (formatPieces none format).map (FormatPiece.text b :: ·)
      else if b = 45 then formatPieces (some { spec with left := true }) format
      else if b = 46 then formatPieces (some { spec with precision := some 0 }) format
      else if b = 108 then formatPieces (some { spec with longs := spec.longs + 1 }) format
      else if 48 ≤ b ∧ b ≤ 57 then
        formatPieces (some (spec.digit (b.toNat - 48))) format
      else if b ∈ [117, 100, 88, 115, 102] then
        (formatPieces none format).map (FormatPiece.conversion spec b :: ·)
      else none

inductive PrintfArg (δ : Type) where
  | int (v : Int32)
  | uint (v : UInt32)
  | ullong (v : UInt64)
  | double (x : δ)
  /-- A string is the array that it points to. -/
  | string (array : List UInt8)

inductive ArgType where
  | int
  | uint
  | ullong
  | double
  | string
  deriving DecidableEq, Repr

inductive PrintfFault where
  | badFormat
  | noArgument
  | otherType
  | unterminated
  deriving DecidableEq, Repr

/-- The type of argument that a conversion takes. -/
def conversionType (spec : FormatSpec) (letter : UInt8) : Option ArgType :=
  if letter = 115 then some .string
  else if letter = 102 then some .double
  else if letter = 100 ∧ spec.longs = 0 then some .int
  else if (letter = 117 ∨ letter = 88) ∧ spec.longs = 0 then some .uint
  else if (letter = 117 ∨ letter = 88) ∧ spec.longs = 2 then some .ullong
  else none

/-- The digits of a number, with capital letters from ten on. -/
def digitsOf (base v : Nat) : List UInt8 :=
  (Nat.toDigits base v).map fun c => UInt8.ofNat c.toUpper.toNat

def unsignedDigits (letter : UInt8) (v : Nat) : List UInt8 :=
  digitsOf (if letter = 88 then 16 else 10) v

def signedDigits (v : Int) : List UInt8 :=
  (if v < 0 then [45] else []) ++ digitsOf 10 v.natAbs

def FormatSpec.pad (spec : FormatSpec) (text : List UInt8) : List UInt8 :=
  let missing := spec.width - text.length
  if spec.left then text ++ List.replicate missing 32
  else if spec.zeros then List.replicate missing 48 ++ text
  else List.replicate missing 32 ++ text

section Formatting
variable {δ : Type}

namespace PrintfArg

def type : PrintfArg δ → ArgType
  | int _ => .int
  | uint _ => .uint
  | ullong _ => .ullong
  | double _ => .double
  | string _ => .string

/-- A string has a terminator. -/
def Terminated : PrintfArg δ → Prop
  | string array => 0 ∈ array
  | _ => True

/-- The text of an argument of the right type. -/
def text (shown : Nat → δ → List UInt8) (spec : FormatSpec) (letter : UInt8) :
    PrintfArg δ → List UInt8
  | int v => signedDigits v.toInt
  | uint v => unsignedDigits letter v.toNat
  | ullong v => unsignedDigits letter v.toNat
  | double x => shown (spec.precision.getD 6) x
  | string array => array.takeWhile (· ≠ 0)

instance : (a : PrintfArg δ) → Decidable a.Terminated
  | int _ => inferInstanceAs (Decidable True)
  | uint _ => inferInstanceAs (Decidable True)
  | ullong _ => inferInstanceAs (Decidable True)
  | double _ => inferInstanceAs (Decidable True)
  | string array => inferInstanceAs (Decidable (0 ∈ array))

def converted (shown : Nat → δ → List UInt8) (spec : FormatSpec) (letter : UInt8)
    (a : PrintfArg δ) : Except PrintfFault (List UInt8) :=
  if conversionType spec letter ≠ some a.type then .error .otherType
  else if ¬a.Terminated then .error .unterminated
  else .ok (spec.pad (a.text shown spec letter))

end PrintfArg

/-- Arguments behind the last conversion are not looked at. -/
def formatted (shown : Nat → δ → List UInt8) :
    List FormatPiece → List (PrintfArg δ) → Except PrintfFault (List UInt8)
  | [], _ => .ok []
  | .text b :: pieces, args => do
    let rest ← formatted shown pieces args
    .ok (b :: rest)
  | .conversion _ _ :: _, [] => .error .noArgument
  | .conversion spec letter :: pieces, a :: args => do
    let text ← a.converted shown spec letter
    let rest ← formatted shown pieces args
    .ok (text ++ rest)

/-- What a call prints. -/
def printfText (shown : Nat → δ → List UInt8) (format : List UInt8) (args : List (PrintfArg δ)) :
    Except PrintfFault (List UInt8) :=
  match formatPieces none format with
  | none => .error .badFormat
  | some pieces => formatted shown pieces args

/-- The types that the conversions take, in order. -/
def pieceTypes : List FormatPiece → List (Option ArgType)
  | [] => []
  | .text _ :: pieces => pieceTypes pieces
  | .conversion spec letter :: pieces => conversionType spec letter :: pieceTypes pieces

def formatTypes (format : List UInt8) : Option (List (Option ArgType)) :=
  (formatPieces none format).map pieceTypes

/-- The arguments are of the types that the format asks for. -/
def Accepts (format : List UInt8) (args : List (PrintfArg δ)) : Prop :=
  formatTypes format = some (args.map fun a => some a.type)

theorem formatted_ok (shown : Nat → δ → List UInt8) {pieces : List FormatPiece}
    {args : List (PrintfArg δ)} (htypes : pieceTypes pieces = args.map fun a => some a.type)
    (hstrings : ∀ a ∈ args, a.Terminated) : ∃ text, formatted shown pieces args = .ok text := by
  induction pieces generalizing args with
  | nil => exact ⟨[], rfl⟩
  | cons piece pieces ih =>
    cases piece with
    | text b =>
      obtain ⟨rest, hrest⟩ := ih htypes hstrings
      exact ⟨b :: rest, by rw [formatted, hrest]; rfl⟩
    | conversion spec letter =>
      cases args with
      | nil => cases htypes
      | cons a args =>
        obtain ⟨htype, htypes⟩ := List.cons.inj htypes
        obtain ⟨hstring, hstrings⟩ := List.forall_mem_cons.mp hstrings
        obtain ⟨rest, hrest⟩ := ih htypes hstrings
        have hconverted : a.converted shown spec letter =
            .ok (spec.pad (a.text shown spec letter)) := by
          rw [PrintfArg.converted, if_neg (not_not.mpr htype), if_neg (not_not.mpr hstring)]
        exact ⟨spec.pad (a.text shown spec letter) ++ rest, by
          rw [formatted, hconverted, hrest]
          rfl⟩

/-- A call with arguments of the right types and proper strings has no fault. -/
theorem printfText_ok (shown : Nat → δ → List UInt8) {format : List UInt8}
    {args : List (PrintfArg δ)} (haccepts : Accepts format args)
    (hstrings : ∀ a ∈ args, a.Terminated) : ∃ text, printfText shown format args = .ok text := by
  obtain ⟨pieces, hpieces, htypes⟩ := Option.map_eq_some_iff.mp haccepts
  rw [printfText, hpieces]
  exact formatted_ok shown htypes hstrings

end Formatting
end HwMon
