import SeriesBlock.Error
import SeriesBlock.Varint

/-!
# Reading from the front of a byte string

A decoder takes a byte string and gives its outcome together with the bytes it left. Every reading step checks
what remains before it takes anything and fails with `invalidSize` otherwise. The bytes left are also given after
a failure: a step that decodes a number and then finds it too large has used that number up, every other failed
step has used nothing.
-/

set_option autoImplicit false

namespace SeriesBlock

/-- A reading step: its outcome, and the bytes that remain. -/
def Decoder (α : Type) : Type :=
  Bytes → Except BlockError α × Bytes

namespace Decoder

variable {α β : Type}

/-- Runs a decoder on a byte string. -/
def run (d : Decoder α) (b : Bytes) : Except BlockError α × Bytes :=
  d b

/-- The outcome of a decoder, whatever it leaves. -/
def eval (d : Decoder α) (b : Bytes) : Except BlockError α :=
  (d.run b).1

/-- One decoder after another; the first failure ends both. -/
def andThen (d : Decoder α) (f : α → Decoder β) : Decoder β := fun b =>
  match d.run b with
  | (.ok a, rest) => (f a).run rest
  | (.error e, rest) => (.error e, rest)

instance : Monad Decoder where
  pure a := fun b => (.ok a, b)
  bind := andThen

/-- Fails where it stands. -/
def fail (e : BlockError) : Decoder α := fun b => (.error e, b)

/-- An outcome that does not depend on the bytes, as a decoder that takes none. -/
def ofExcept (r : Except BlockError α) : Decoder α := fun b => (r, b)

@[simp]
theorem run_pure (a : α) (b : Bytes) : (pure a : Decoder α).run b = (.ok a, b) :=
  rfl

@[simp]
theorem run_fail (e : BlockError) (b : Bytes) : (fail e : Decoder α).run b = (.error e, b) :=
  rfl

@[simp]
theorem run_ofExcept (r : Except BlockError α) (b : Bytes) : (ofExcept r).run b = (r, b) :=
  rfl

theorem run_bind (d : Decoder α) (f : α → Decoder β) (b : Bytes) :
    (d >>= f).run b = match d.run b with
      | (.ok a, rest) => (f a).run rest
      | (.error e, rest) => (.error e, rest) :=
  rfl

/-- After a step that succeeds comes the next one, on what is left. -/
theorem run_bind_ok {d : Decoder α} {f : α → Decoder β} {b rest : Bytes} {a : α}
    (h : d.run b = (.ok a, rest)) : (d >>= f).run b = (f a).run rest := by
  rw [run_bind, h]

/-- A step that fails is the last one. -/
theorem run_bind_error {d : Decoder α} {f : α → Decoder β} {b rest : Bytes} {e : BlockError}
    (h : d.run b = (.error e, rest)) : (d >>= f).run b = (.error e, rest) := by
  rw [run_bind, h]

/-- Two steps succeed only if each does, the second on what the first left. -/
theorem run_bind_eq_ok {d : Decoder α} {f : α → Decoder β} {b rest : Bytes} {c : β} :
    (d >>= f).run b = (.ok c, rest) ↔
      ∃ a mid, d.run b = (.ok a, mid) ∧ (f a).run mid = (.ok c, rest) := by
  rw [run_bind]
  cases h : d.run b with
  | mk r mid =>
    cases r with
    | ok a =>
      constructor
      · intro hf
        exact ⟨a, mid, rfl, hf⟩
      · rintro ⟨a', mid', he, hf⟩
        cases he
        exact hf
    | error e =>
      constructor
      · intro he
        cases he
      · rintro ⟨a, mid', he, _⟩
        cases he

/-! ## Reading steps -/

/-- How many bytes remain. -/
def remaining : Decoder Nat := fun b => (.ok b.length, b)

/-- The next `n` bytes. -/
def take (n : Nat) : Decoder Bytes := fun b =>
  if n ≤ b.length then (.ok (b.take n), b.drop n) else (.error .invalidSize, b)

/-- The next byte. -/
def byte : Decoder UInt8 := fun b =>
  match b with
  | [] => (.error .invalidSize, [])
  | x :: rest => (.ok x, rest)

/-- The next four bytes as a word. -/
def word32 : Decoder UInt32 := do
  let b ← take 4
  pure (UInt32.ofNat (Bytes.toNat b))

/-- The next eight bytes as a word. -/
def word64 : Decoder UInt64 := do
  let b ← take 8
  pure (UInt64.ofNat (Bytes.toNat b))

/-- An unsigned number of variable length. -/
def uvarint : Decoder UInt64 := fun b =>
  match Varint.decode b with
  | some (v, used) => (.ok v, b.drop used)
  | none => (.error .invalidSize, b)

/-- A signed number of variable length. -/
def varint : Decoder Int64 := fun b =>
  match Varint.decodeSigned b with
  | some (x, used) => (.ok x, b.drop used)
  | none => (.error .invalidSize, b)

/-- An unsigned number of variable length that must fit 32 bits. -/
def uvarint32 : Decoder UInt32 := do
  let v ← uvarint
  if v.toNat < UInt32.size then pure (UInt32.ofNat v.toNat) else fail .invalidSize

/-- A number of elements to follow, of which each takes at least `least` bytes: it may not exceed what the
bytes after it can hold. -/
def count (least : Nat) : Decoder Nat := do
  let v ← uvarint
  let left ← remaining
  if v.toNat ≤ left / max least 1 then pure v.toNat else fail .invalidSize

end Decoder

/-! ## Positions in a buffer -/

namespace Bytes

/-- The bytes from a position on; the end of the buffer is a position too. -/
def tailFrom (b : Bytes) (position : Nat) : Except BlockError Bytes :=
  if position ≤ b.length then .ok (b.drop position) else .error .invalidSize

/-- The word at a position of a buffer. -/
def word32At (b : Bytes) (position : Nat) : Except BlockError UInt32 := do
  Decoder.word32.eval (← b.tailFrom position)

end Bytes

end SeriesBlock
