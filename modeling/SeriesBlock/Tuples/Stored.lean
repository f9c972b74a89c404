import SeriesBlock.Symbol

/-!
# Tuples of strings in a buffer

Tuples as a label index stores them: a run of 32-bit symbol offsets, `arity` of them for each tuple. Strings are
looked up when a tuple is asked for, so a bad symbol spoils only the tuples that use it. Bytes after the last
whole tuple are ignored.
-/

set_option autoImplicit false

namespace SeriesBlock

/-- Tuples of `arity` symbols each: the offsets and the buffer that holds the symbols. -/
structure StoredTuples where
  arity : UInt64
  payload : Bytes
  symbols : Bytes
  arity_pos : 0 < arity.toNat
  width_fits : 4 * arity.toNat < UInt64.size

namespace StoredTuples

/-- The tuples of a run of offsets, if the bytes of one tuple can be counted in 64 bits. -/
def ofPayload (arity : UInt64) (payload symbols : Bytes) : Except BlockError StoredTuples :=
  if h : 0 < arity.toNat ∧ 4 * arity.toNat < UInt64.size then .ok ⟨arity, payload, symbols, h.1, h.2⟩
  else .error .invalidSize

/-- Tuples are accepted if a tuple has bytes and their number fits. -/
theorem ofPayload_eq_ok_iff {arity : UInt64} {payload symbols : Bytes} {t : StoredTuples} :
    ofPayload arity payload symbols = .ok t ↔
      (0 < arity.toNat ∧ 4 * arity.toNat < UInt64.size) ∧
        t.arity = arity ∧ t.payload = payload ∧ t.symbols = symbols := by
  unfold ofPayload
  split
  · next hfits =>
    rw [Except.ok.injEq]
    constructor
    · rintro rfl
      exact ⟨hfits, rfl, rfl, rfl⟩
    · rintro ⟨-, rfl, rfl, rfl⟩
      rfl
  · next hfits => exact iff_of_false nofun fun h => hfits h.1

/-- The bytes of one tuple. -/
def width (t : StoredTuples) : Nat := 4 * t.arity.toNat

/-- How many whole tuples there are. -/
def length (t : StoredTuples) : Nat := t.payload.length / t.width

/-- Whether there are none. -/
def isEmpty (t : StoredTuples) : Bool := t.length == 0

/-- The next `n` offsets, each as the symbol it leads to. The first that fails is the outcome. -/
def resolve (symbols : Bytes) : Nat → Decoder (List String)
  | 0 => pure []
  | n + 1 => do
    let offset ← Decoder.word32
    let s ← Decoder.ofExcept (Symbol.text symbols offset)
    let more ← resolve symbols n
    pure (s :: more)

/-- The tuple with number `i`. -/
def at? (t : StoredTuples) (i : UInt64) : Except BlockError (List String) :=
  let start := i.toNat * t.width
  if start + t.width ≤ t.payload.length then
    (resolve t.symbols t.arity.toNat).eval ((t.payload.drop start).take t.width)
  else .error .invalidSize

/-- All tuples in order, each with its own outcome. -/
def toList (t : StoredTuples) : List (Except BlockError (List String)) :=
  (List.range t.length).map fun i => t.at? (UInt64.ofNat i)

end StoredTuples

end SeriesBlock
