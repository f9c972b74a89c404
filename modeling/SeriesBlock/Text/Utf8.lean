import SeriesBlock.Bytes

/-!
# Text in bytes

The UTF-8 form of a string, and the reader that takes it back. The reader goes scalar by scalar: the first byte
fixes which bytes may follow (`Lead`), and the first byte that may not follow ends the reading. A byte string
that is not text is reported by the length of its part that is, and by how the next scalar fails: the bytes end
inside it, or some first few of its bytes could begin a scalar and the next one rules that out (overlong forms,
surrogates and values above 10FFFF are ruled out by their second byte).
-/

set_option autoImplicit false

namespace SeriesBlock.Utf8

/-- The UTF-8 form of a string. -/
def encode (s : String) : Bytes :=
  s.toList.flatMap String.utf8EncodeChar

/-! ## Failures -/

/-- How the bytes after the last whole scalar fail to be one. -/
inductive Flaw where
  /-- They end before the scalar does. -/
  | incomplete
  /-- Their first `length` bytes could begin a scalar, but not followed by the next byte. -/
  | invalid (length : Nat)
deriving DecidableEq, Repr

/-- Why a byte string is not text: the length of its longest part from the front that is, and the flaw
after it. -/
structure Fault where
  validUpTo : Nat
  flaw : Flaw
deriving DecidableEq, Repr

/-- The wording of a fault. -/
def Fault.message : Fault → String
  | ⟨position, .incomplete⟩ => s!"incomplete utf-8 byte sequence from index {position}"
  | ⟨position, .invalid n⟩ => s!"invalid utf-8 sequence of {n} bytes from index {position}"

/-! ## Reading one scalar -/

/-- A range of bytes, both ends included. -/
structure Range where
  low : UInt8
  high : UInt8
deriving DecidableEq, Repr

/-- Whether a byte lies in a range. -/
def Range.admits (r : Range) (b : UInt8) : Bool :=
  r.low ≤ b && b ≤ r.high

/-- The bytes that continue a scalar. -/
def Range.tail : Range := ⟨0x80, 0xbf⟩

/-- What a first byte says of its scalar: the bits it contributes and the ranges of the bytes to follow. -/
structure Lead where
  bits : Nat
  follow : List Range

/-- The meaning of a first byte, if it is one. -/
def lead? (b : UInt8) : Option Lead :=
  if b ≤ 0x7f then some ⟨b.toNat, []⟩
  else if b < 0xc2 then none
  else if b ≤ 0xdf then some ⟨b.toNat % 32, [.tail]⟩
  else if b = 0xe0 then some ⟨0, [⟨0xa0, 0xbf⟩, .tail]⟩
  else if b = 0xed then some ⟨13, [⟨0x80, 0x9f⟩, .tail]⟩
  else if b ≤ 0xef then some ⟨b.toNat % 16, [.tail, .tail]⟩
  else if b = 0xf0 then some ⟨0, [⟨0x90, 0xbf⟩, .tail, .tail]⟩
  else if b ≤ 0xf3 then some ⟨b.toNat % 8, [.tail, .tail, .tail]⟩
  else if b = 0xf4 then some ⟨4, [⟨0x80, 0x8f⟩, .tail, .tail]⟩
  else none

/-- How many bytes the scalar takes that starts with a given byte. -/
def scalarLength (b : UInt8) : Nat :=
  match lead? b with
  | some lead => lead.follow.length + 1
  | none => 1

/-- Reads the bytes that are still to follow, after `seen` bytes of the scalar that stand for `value`. -/
def readFollow (value seen : Nat) : List Range → Bytes → Except Flaw (Nat × Bytes)
  | [], rest => .ok (value, rest)
  | _ :: _, [] => .error .incomplete
  | r :: follow, b :: rest =>
    if r.admits b then readFollow (64 * value + b.toNat % 64) (seen + 1) follow rest
    else .error (.invalid seen)

/-- The scalar at the front of a byte string that is not empty, and the bytes after it. -/
def readScalar (b : UInt8) (rest : Bytes) : Except Flaw (Char × Bytes) :=
  match lead? b with
  | none => .error (.invalid 1)
  | some lead =>
    match readFollow lead.bits 1 lead.follow rest with
    | .ok (value, rest') => .ok (Char.ofNat value, rest')
    | .error flaw => .error flaw

/-- Reading what follows leaves no more bytes than there were. -/
theorem readFollow_length {value seen n : Nat} {follow : List Range} {rest rest' : Bytes}
    (h : readFollow value seen follow rest = .ok (n, rest')) : rest'.length ≤ rest.length := by
  induction follow generalizing value seen rest with
  | nil =>
    cases h
    exact Nat.le_refl _
  | cons r follow ih =>
    cases rest with
    | nil => cases h
    | cons b rest =>
      rw [readFollow] at h
      split at h
      · exact Nat.le_succ_of_le (ih h)
      · cases h

/-- Reading a scalar uses its first byte up. -/
theorem readScalar_length {b : UInt8} {rest rest' : Bytes} {c : Char}
    (h : readScalar b rest = .ok (c, rest')) : rest'.length ≤ rest.length := by
  unfold readScalar at h
  split at h
  · cases h
  · split at h
    · next hf =>
      cases h
      exact readFollow_length hf
    · cases h

/-! ## Reading text -/

/-- The scalars of a byte string that starts at position `position` of the whole. -/
def scalars (position : Nat) : Bytes → Except Fault (List Char)
  | [] => .ok []
  | b :: rest =>
    match _h : readScalar b rest with
    | .error flaw => .error ⟨position, flaw⟩
    | .ok (c, rest') =>
      match scalars (position + scalarLength b) rest' with
      | .error fault => .error fault
      | .ok cs => .ok (c :: cs)
  termination_by b => b.length
  decreasing_by
    have := readScalar_length _h
    simp only [List.length_cons]
    omega

/-- The string of which the bytes are the UTF-8 form. -/
def decode (b : Bytes) : Except Fault String :=
  (scalars 0 b).map String.ofList

end SeriesBlock.Utf8
