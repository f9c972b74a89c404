import SeriesBlock.Bytes

/-!
# Variable-length integers

An unsigned number is written in groups of seven bits, least significant group first; every group but the last
has its top bit set. A number of 64 bits takes at most ten groups, and the tenth may only be 0 or 1. Groups of
zero at the end are legal, so a number has several written forms; `encode` writes the shortest.

A signed number is first folded onto the unsigned ones, small magnitudes first: `0, -1, 1, -2, …` becomes
`0, 1, 2, 3, …` (`zigzag` and its inverse `unzigzag`).
-/

set_option autoImplicit false

namespace SeriesBlock.Varint

/-- The most bytes that a 64-bit number may take. -/
def maxLength : Nat := 10

/-- Reads at most `k` groups, as the exact number they stand for and how many were read. The last admissible
group may hold one bit only. -/
def decodeGroups : Nat → Bytes → Option (Nat × Nat)
  | 0, _ => none
  | _ + 1, [] => none
  | k + 1, b :: rest =>
    if b < 0x80 then
      if k = 0 ∧ 1 < b then none else some (b.toNat, 1)
    else
      (decodeGroups k rest).map fun (value, used) => (b.toNat % 128 + 128 * value, used + 1)

/-- The unsigned number at the front of a byte string and the number of bytes it takes; `none` if the bytes
end inside it or it does not fit 64 bits. -/
def decode (b : Bytes) : Option (UInt64 × Nat) :=
  (decodeGroups maxLength b).map fun (value, used) => (UInt64.ofNat value, used)

/-- The shortest groups of a number. -/
def encodeNat (n : Nat) : Bytes :=
  if n < 128 then [UInt8.ofNat n] else UInt8.ofNat (n % 128 + 128) :: encodeNat (n / 128)

/-- The shortest written form of an unsigned 64-bit number. -/
def encode (v : UInt64) : Bytes :=
  encodeNat v.toNat

/-! ## Signed numbers -/

/-- The unsigned number that stands for a signed one: `2 x` for `x ≥ 0` and `-2 x - 1` below zero. -/
def zigzag (x : Int64) : UInt64 :=
  if 0 ≤ x.toInt then UInt64.ofNat (2 * x.toInt).toNat else UInt64.ofNat (-2 * x.toInt - 1).toNat

/-- The signed number that an unsigned one stands for: even numbers are halved, odd ones fall below zero. -/
def unzigzag (u : UInt64) : Int64 :=
  if u.toNat % 2 = 0 then Int64.ofInt (u.toNat / 2 : Nat) else Int64.ofInt (-(u.toNat / 2 : Nat) - 1)

/-- The signed number at the front of a byte string and the number of bytes it takes. -/
def decodeSigned (b : Bytes) : Option (Int64 × Nat) :=
  (decode b).map fun (u, used) => (unzigzag u, used)

/-- The shortest written form of a signed 64-bit number. -/
def encodeSigned (x : Int64) : Bytes :=
  encode (zigzag x)

/-! ## How much is read -/

/-- A number that was read took at least one byte, and no more than there were. -/
theorem decodeGroups_used {k : Nat} {b : Bytes} {value used : Nat}
    (h : decodeGroups k b = some (value, used)) : 0 < used ∧ used ≤ b.length ∧ used ≤ k := by
  induction k generalizing b value used with
  | zero => simp [decodeGroups] at h
  | succ k ih =>
    cases b with
    | nil => simp [decodeGroups] at h
    | cons x rest =>
      rw [decodeGroups] at h
      split at h
      · split at h
        · cases h
        · cases h
          simp
      · obtain ⟨⟨v, u⟩, hv, he⟩ := Option.map_eq_some_iff.1 h
        cases he
        have := ih hv
        simp only [List.length_cons]
        omega

/-- An unsigned number took at least one byte, at most ten, and no more than there were. -/
theorem decode_used {b : Bytes} {v : UInt64} {used : Nat} (h : decode b = some (v, used)) :
    0 < used ∧ used ≤ b.length ∧ used ≤ maxLength := by
  obtain ⟨⟨value, n⟩, hv, he⟩ := Option.map_eq_some_iff.1 h
  cases he
  exact decodeGroups_used hv

/-- A signed number took at least one byte, at most ten, and no more than there were. -/
theorem decodeSigned_used {b : Bytes} {x : Int64} {used : Nat} (h : decodeSigned b = some (x, used)) :
    0 < used ∧ used ≤ b.length ∧ used ≤ maxLength := by
  obtain ⟨⟨v, n⟩, hv, he⟩ := Option.map_eq_some_iff.1 h
  cases he
  exact decode_used hv

end SeriesBlock.Varint
