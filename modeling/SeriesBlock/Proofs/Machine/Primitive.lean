import SeriesBlock.Proofs.Steps

/-!
# Operations that may trap

The decoders as a machine of 64 bits performs them: addresses and lengths are numbers below
`2 ^ 64`, and an operation whose operands do not fit stops the whole run. This module holds those
operations: arithmetic that overflows, divisions by zero, shifts by too many places, slices and
indices that leave their bytes, splits past the end, copies between different lengths, and
reservations of more elements than the buffer has bytes.

A `Run` either traps or ends in an outcome, which is a value or an error of the block. Each
operation has one lemma that says when it does not trap.
-/

set_option autoImplicit false

namespace SeriesBlock.Machine

/-- Why a run stops in the middle of an operation. -/
inductive Trap where
  /-- A sum, difference or product that is no number of the machine's width. -/
  | overflow
  /-- A division by zero. -/
  | division
  /-- A shift by as many places as a word has, or more. -/
  | shift
  /-- Bounds of a slice that are not in order or not inside the bytes. -/
  | slice
  /-- An index outside the bytes. -/
  | index
  /-- A split past the end of the bytes. -/
  | split
  /-- A copy into a place of another length. -/
  | copy
  /-- A reservation of more elements than the buffer has bytes. -/
  | capacity
deriving DecidableEq, Repr

/-- A run: it traps, or it ends in an outcome. -/
def Run (α : Type) : Type :=
  Except Trap (Except BlockError α)

variable {α β : Type}

namespace Run

/-- The run that ends in a given outcome. -/
def ends (r : Except BlockError α) : Run α :=
  .ok r

/-- The run that traps. -/
def trap (t : Trap) : Run α :=
  .error t

/-- The run that ends in a given error. -/
def fail (e : BlockError) : Run α :=
  ends (.error e)

/-- One run after another; a trap and an error each end both. -/
def andThen (m : Run α) (f : α → Run β) : Run β :=
  match m with
  | .ok (.ok a) => f a
  | .ok (.error e) => .ok (.error e)
  | .error t => .error t

instance : Monad Run where
  pure a := ends (.ok a)
  bind := andThen

/-- The run that ends in the outcome of another as its value. -/
def attempt (m : Run α) : Run (Except BlockError α) :=
  match m with
  | .ok r => .ok (.ok r)
  | .error t => .error t

/-- Replaces the error of a run. -/
def mapError (m : Run α) (f : BlockError → BlockError) : Run α :=
  match m with
  | .ok r => .ok (r.mapError f)
  | .error t => .error t

@[simp]
theorem ends_ok_bind (a : α) (f : α → Run β) : (ends (.ok a) >>= f) = f a :=
  rfl

@[simp]
theorem pure_then (a : α) (f : α → Run β) : ((pure a : Run α) >>= f) = f a :=
  rfl

@[simp]
theorem attempt_ends (r : Except BlockError α) : attempt (ends r) = ends (.ok r) :=
  rfl

@[simp]
theorem mapError_ends (r : Except BlockError α) (f : BlockError → BlockError) :
    mapError (ends r) f = ends (r.mapError f) :=
  rfl

/-- Runs in sequence may be grouped as one likes. -/
theorem bind_bind {γ : Type} (m : Run α) (f : α → Run β) (g : β → Run γ) :
    (m >>= f >>= g) = m >>= fun a => f a >>= g := by
  match m with
  | .ok (.ok _) => rfl
  | .ok (.error _) => rfl
  | .error _ => rfl

/-- Runs in sequence that end, end in the outcomes in sequence. -/
theorem bind_ends {m : Run α} {r : Except BlockError α} {f : α → Run β}
    {g : α → Except BlockError β} (hm : m = ends r) (hf : ∀ a, r = .ok a → f a = ends (g a)) :
    (m >>= f) = ends (r >>= g) := by
  subst hm
  cases r with
  | ok a => exact hf a rfl
  | error e => rfl

end Run

open Run

/-! ## Arithmetic -/

/-- A sum of numbers of `width` bits. -/
def addIn (width a b : Nat) : Run Nat :=
  if a + b < 2 ^ width then pure (a + b) else trap .overflow

/-- A sum of addresses or lengths. -/
def add (a b : Nat) : Run Nat :=
  addIn 64 a b

/-- A difference of addresses or lengths. -/
def sub (a b : Nat) : Run Nat :=
  if b ≤ a then pure (a - b) else trap .overflow

/-- A product of lengths. -/
def mul (a b : Nat) : Run Nat :=
  if a * b < 2 ^ 64 then pure (a * b) else trap .overflow

/-- A quotient of lengths. -/
def div (a b : Nat) : Run Nat :=
  if b = 0 then trap .division else pure (a / b)

/-- A word shifted up by `n` places. -/
def shiftLeft (v : UInt64) (n : Nat) : Run UInt64 :=
  if n < 64 then pure (v <<< UInt64.ofNat n) else trap .shift

theorem addIn_of_lt {width a b : Nat} (h : a + b < 2 ^ width) : addIn width a b = pure (a + b) :=
  if_pos h

theorem add_of_lt {a b : Nat} (h : a + b < 2 ^ 64) : add a b = pure (a + b) :=
  if_pos h

theorem sub_of_le {a b : Nat} (h : b ≤ a) : sub a b = pure (a - b) :=
  if_pos h

theorem mul_of_lt {a b : Nat} (h : a * b < 2 ^ 64) : mul a b = pure (a * b) :=
  if_pos h

theorem div_of_ne {a b : Nat} (h : b ≠ 0) : div a b = pure (a / b) :=
  if_neg h

theorem shiftLeft_of_lt {v : UInt64} {n : Nat} (h : n < 64) :
    shiftLeft v n = pure (v <<< UInt64.ofNat n) :=
  if_pos h

/-! ## Memory -/

/-- The bytes from `start` up to `stop`. -/
def slice (b : Bytes) (start stop : Nat) : Run Bytes :=
  if start ≤ stop ∧ stop ≤ b.length then pure ((b.drop start).take (stop - start)) else trap .slice

/-- The byte at a position. -/
def index (b : Bytes) (i : Nat) : Run UInt8 :=
  match b[i]? with
  | some x => pure x
  | none => trap .index

/-- The first `n` bytes and the others. -/
def splitAt (b : Bytes) (n : Nat) : Run (Bytes × Bytes) :=
  if n ≤ b.length then pure (b.take n, b.drop n) else trap .split

/-- The bytes, copied to a place of `n` bytes. -/
def copyTo (n : Nat) (b : Bytes) : Run Bytes :=
  if b.length = n then pure b else trap .copy

/-- Room for `n` elements decoded from a buffer of `limit` bytes. -/
def reserve (limit n : Nat) : Run Unit :=
  if n ≤ limit then pure () else trap .capacity

theorem slice_of_le (b : Bytes) {start n : Nat} (h : start + n ≤ b.length) :
    slice b start (start + n) = pure ((b.drop start).take n) := by
  rw [slice, if_pos ⟨Nat.le_add_right _ _, h⟩, Nat.add_sub_cancel_left]

/-- A slice that starts after `pre` is a slice of what follows. -/
theorem slice_append {pre d : Bytes} {start k n : Nat} (hp : pre.length = start)
    (h : k + n ≤ d.length) :
    slice (pre ++ d) (start + k) (start + k + n) = pure ((d.drop k).take n) := by
  rw [slice_of_le _ (by rw [List.length_append]; omega), ← hp, List.drop_length_add_append]

theorem splitAt_of_le {b : Bytes} {n : Nat} (h : n ≤ b.length) :
    splitAt b n = pure (b.take n, b.drop n) :=
  if_pos h

theorem copyTo_of_length {b : Bytes} {n : Nat} (h : b.length = n) : copyTo n b = pure b :=
  if_pos h

theorem reserve_of_le {limit n : Nat} (h : n ≤ limit) : reserve limit n = pure () :=
  if_pos h

end SeriesBlock.Machine
