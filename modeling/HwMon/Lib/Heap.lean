import HwMon.Lib.Bytes
import HwMon.Lib.Store

/-!
# Programs with heap blocks

A block has a size and the bytes written to it so far, from its start. A program
allocates blocks, fills them, reads them through a probe and frees them. It stops
with a fault when it frees a block twice, uses a freed one, writes past the end
of one or reads a byte that was never written.
-/

namespace HwMon
set_option autoImplicit false

structure Block where
  size : Nat
  bytes : List UInt8
  fits : bytes.length ≤ size

namespace Block

/-- A block as `malloc` hands it out. -/
def raw (size : Nat) : Block := ⟨size, [], Nat.zero_le size⟩

def write (b : Block) (l : List UInt8) : Block :=
  ⟨b.size, l.take b.size, List.length_take_le _ _⟩

theorem write_bytes {b : Block} {l : List UInt8} (h : l.length ≤ b.size) :
    (b.write l).bytes = l :=
  List.take_of_length_le h

end Block

inductive HeapFault where
  | invalidFree (p : Nat)
  | useAfterFree (p : Nat)
  | overrun (p : Nat)
  | uninitialised (p : Nat)
  deriving DecidableEq, Repr

abbrev Heap := Store Block

abbrev HeapM (ε α : Type) := StoreM ε Block HeapFault α

section Operations
variable {ε ω α : Type}

/-- `malloc`, where `grants` says which requests are granted. -/
def malloc (grants : ε → Nat → Nat → Bool) (size : Nat) : HeapM ε (Option Nat) :=
  request (fun e n => grants e n size) (.raw size)

def free (p : Nat) : HeapM ε Unit := giveBack (.invalidFree p) p

/-- A copy of some bytes to the start of a block. -/
def fill (p : Nat) (l : List UInt8) : HeapM ε Unit :=
  access (.useAfterFree p) p fun b =>
    if l.length ≤ b.size then .ok ((), some (b.write l)) else .error (.overrun p)

/-- A question is about an address below `n`. -/
def AsksBelow (n : Nat) : Access Nat ω → Bool
  | .read i => decide (i < n)
  | .note _ => true

/-- A probe asks for nothing behind the bytes that it is run on. -/
def StaysIn (raw : List UInt8) (q : ByteProbe ω α) : Prop :=
  q.Always (fun a => AsksBelow raw.length a = true) (memOf raw)

/-- The code that reads a block, with addresses from its start. -/
def consult (p : Nat) (q : ByteProbe ω α) : HeapM ε α :=
  access (.useAfterFree p) p fun b =>
    if (q.log (memOf b.bytes)).all (AsksBelow b.bytes.length) then
      .ok (q.val (memOf b.bytes), some b)
    else .error (.uninitialised p)

section Rules
variable {e : ε} {h t : Heap} {p : Nat} {b : Block}

theorem returns_fill (ht : h.With p b t) {l : List UInt8} (hl : l.length ≤ b.size) :
    (fill p l : HeapM ε Unit).Returns e t fun _ u =>
      h.With p (b.write l) u ∧ u.calls = t.calls :=
  ⟨(), _, access_ok ht.self (if_pos hl), ht.changed rfl, rfl⟩

theorem returns_consult (hp : t.cells p = some b) {q : ByteProbe ω α}
    (hq : StaysIn b.bytes q) :
    (consult p q : HeapM ε α).Returns e t fun a u =>
      a = q.val (memOf b.bytes) ∧ u.cells = t.cells ∧ u.calls = t.calls :=
  returns_access_same hp (if_pos (List.all_eq_true.mpr hq))

end Rules
end Operations
end HwMon
