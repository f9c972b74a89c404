import SeriesBlock.Proofs.Locality

/-!
# What reading steps use up

Steps of any kind and number, each on what the one before it left, whether that one succeeded or not. A step takes
bytes off the front of what it finds (`Reading.exists_taken`). If it succeeds these are the ones its value is
decoded from (`Reading.Decodes`). If it fails it takes none, but for the two steps that decode a number before
they refuse it: these take the number (`Reading.Refuses`).

The main statement is `steps_use_up_what_they_decode`: after any steps, the bytes used up are those in front of
the bytes that remain.
-/

set_option autoImplicit false

namespace SeriesBlock

open Bytes Decoder

/-! ## Steps one by one -/

namespace Decoder

theorem run_take_cases (n : Nat) (b : Bytes) :
    (∃ w rest, b = w ++ rest ∧ w.length = n ∧ (take n).run b = (.ok w, rest)) ∨
      b.length < n ∧ (take n).run b = (.error .invalidSize, b) := by
  by_cases h : n ≤ b.length
  · have hb := (List.take_append_drop n b).symm
    have hlength := List.length_take_of_le h
    exact .inl ⟨b.take n, b.drop n, hb, hlength, run_take_eq_ok.2 ⟨hb, hlength⟩⟩
  · have hlt := Nat.lt_of_not_le h
    exact .inr ⟨hlt, run_take_of_short hlt⟩

theorem run_byte_cases (b : Bytes) :
    (∃ x rest, b = x :: rest ∧ byte.run b = (.ok x, rest)) ∨
      b = [] ∧ byte.run b = (.error .invalidSize, b) := by
  cases b with
  | nil => exact .inr ⟨rfl, rfl⟩
  | cons x rest => exact .inl ⟨x, rest, rfl, rfl⟩

theorem run_word32_cases (b : Bytes) :
    (∃ v rest, b = ofWord32 v ++ rest ∧ word32.run b = (.ok v, rest)) ∨
      b.length < 4 ∧ word32.run b = (.error .invalidSize, b) := by
  rcases run_take_cases 4 b with ⟨w, rest, rfl, hw, hrun⟩ | ⟨hlt, hrun⟩
  · have hword : w = ofWord32 (UInt32.ofNat (toNat w)) := (ofWord32_ofNat_toNat hw).symm
    exact .inl ⟨_, rest, congrArg (· ++ rest) hword, run_bind_ok hrun⟩
  · exact .inr ⟨hlt, run_bind_error hrun⟩

theorem run_word64_cases (b : Bytes) :
    (∃ v rest, b = ofWord64 v ++ rest ∧ word64.run b = (.ok v, rest)) ∨
      b.length < 8 ∧ word64.run b = (.error .invalidSize, b) := by
  rcases run_take_cases 8 b with ⟨w, rest, rfl, hw, hrun⟩ | ⟨hlt, hrun⟩
  · have hword : w = ofWord64 (UInt64.ofNat (toNat w)) := (ofWord64_ofNat_toNat hw).symm
    exact .inl ⟨_, rest, congrArg (· ++ rest) hword, run_bind_ok hrun⟩
  · exact .inr ⟨hlt, run_bind_error hrun⟩

/-- A number is decoded from its own bytes alone, whatever follows them. -/
theorem run_uvarint_cases (b : Bytes) :
    (∃ v w rest, b = w ++ rest ∧ Varint.decode w = some (v, w.length) ∧ uvarint.run b = (.ok v, rest)) ∨
      Varint.decode b = none ∧ uvarint.run b = (.error .invalidSize, b) := by
  cases hd : Varint.decode b with
  | none =>
      right
      rw [run, uvarint, hd]
      exact ⟨rfl, rfl⟩
  | some p =>
      obtain ⟨v, used⟩ := p
      obtain ⟨w, rest, rfl, -, hw⟩ := Varint.decode_eq_some_iff.1 hd
      left
      refine ⟨v, w, rest, rfl, ?_, run_uvarint_eq_ok_iff.2 ⟨w, rfl, hw⟩⟩
      exact Varint.decode_eq_some_iff.2 ⟨w, [], (List.append_nil w).symm, rfl, hw⟩

theorem run_varint_cases (b : Bytes) :
    (∃ x w rest, b = w ++ rest ∧ Varint.decodeSigned w = some (x, w.length) ∧ varint.run b = (.ok x, rest)) ∨
      Varint.decodeSigned b = none ∧ varint.run b = (.error .invalidSize, b) := by
  rw [varint_eq]
  rcases run_uvarint_cases b with ⟨u, w, rest, rfl, hw, hrun⟩ | ⟨hnone, hrun⟩
  · refine .inl ⟨Varint.unzigzag u, w, rest, rfl, ?_, run_bind_ok hrun⟩
    rw [Varint.decodeSigned, hw]
    rfl
  · refine .inr ⟨?_, run_bind_error hrun⟩
    rw [Varint.decodeSigned, hnone]
    rfl

/-- A number that does not fit 32 bits is taken before it is refused. -/
theorem run_uvarint32_cases (b : Bytes) :
    (∃ u w rest, b = w ++ rest ∧ Varint.decode w = some (u, w.length) ∧ ∃ v : UInt32,
        u.toNat = v.toNat ∧ uvarint32.run b = (.ok v, rest)) ∨
      (∃ u w rest, b = w ++ rest ∧ Varint.decode w = some (u, w.length) ∧
        2 ^ 32 ≤ u.toNat ∧ uvarint32.run b = (.error .invalidSize, rest)) ∨
      Varint.decode b = none ∧ uvarint32.run b = (.error .invalidSize, b) := by
  rcases run_uvarint_cases b with ⟨u, w, rest, hb, hw, hrun⟩ | ⟨hnone, hrun⟩
  · by_cases hlt : u.toNat < UInt32.size
    · have hfits := (UInt32.toNat_ofNat_of_lt' hlt).symm
      exact .inl ⟨u, w, rest, hb, hw, _, hfits, run_uvarint32_eq_ok.2 ⟨u, hrun, hfits⟩⟩
    · refine .inr (.inl ⟨u, w, rest, hb, hw, Nat.le_of_not_lt hlt, (run_bind_ok hrun).trans ?_⟩)
      rw [if_neg hlt, run_fail]
  · exact .inr (.inr ⟨hnone, run_bind_error hrun⟩)

/-- So is a number of elements for which the bytes after it are too few. -/
theorem run_count_cases (least : Nat) (b : Bytes) :
    (∃ u w rest, b = w ++ rest ∧ Varint.decode w = some (u, w.length) ∧
        u.toNat ≤ rest.length / max least 1 ∧ (count least).run b = (.ok u.toNat, rest)) ∨
      (∃ u w rest, b = w ++ rest ∧ Varint.decode w = some (u, w.length) ∧
        rest.length / max least 1 < u.toNat ∧ (count least).run b = (.error .invalidSize, rest)) ∨
      Varint.decode b = none ∧ (count least).run b = (.error .invalidSize, b) := by
  rcases run_uvarint_cases b with ⟨u, w, rest, hb, hw, hrun⟩ | ⟨hnone, hrun⟩
  · have hcount := run_count_of_uvarint least hrun
    by_cases hle : u.toNat ≤ rest.length / max least 1
    · rw [if_pos hle] at hcount
      exact .inl ⟨u, w, rest, hb, hw, hle, hcount⟩
    · rw [if_neg hle] at hcount
      exact .inr (.inl ⟨u, w, rest, hb, hw, Nat.lt_of_not_le hle, hcount⟩)
  · exact .inr (.inr ⟨hnone, run_bind_error hrun⟩)

end Decoder

/-! ## Any step -/

/-- The reading steps. -/
inductive Reading where
  | uvarint
  | uvarint32
  | varint
  | byte
  | word32
  | word64
  | count (least : Nat)
  | take (n : Nat)
deriving DecidableEq, Repr

namespace Reading

/-- What a step gives. -/
def Value : Reading → Type
  | uvarint => UInt64
  | uvarint32 => UInt32
  | varint => Int64
  | byte => UInt8
  | word32 => UInt32
  | word64 => UInt64
  | count _ => Nat
  | take _ => Bytes

/-- The decoder that a step runs. -/
def decoder : (s : Reading) → Decoder s.Value
  | uvarint => Decoder.uvarint
  | uvarint32 => Decoder.uvarint32
  | varint => Decoder.varint
  | byte => Decoder.byte
  | word32 => Decoder.word32
  | word64 => Decoder.word64
  | count least => Decoder.count least
  | take n => Decoder.take n

/-- The bytes that a step leaves. -/
def left (s : Reading) (b : Bytes) : Bytes :=
  (s.decoder.run b).2

/-- The bytes that a step takes: as many off the front as it leaves fewer. -/
def taken (s : Reading) (b : Bytes) : Bytes :=
  b.take (b.length - (s.left b).length)

/-- The value is decoded from `w`, from all of it and from nothing else, and `rest` can hold what it announces. -/
def Decodes : (s : Reading) → s.Value → (w rest : Bytes) → Prop
  | uvarint, v, w, _ => Varint.decode w = some (v, w.length)
  | uvarint32, v, w, _ => ∃ u : UInt64, u.toNat = UInt32.toNat v ∧ Varint.decode w = some (u, w.length)
  | varint, x, w, _ => Varint.decodeSigned w = some (x, w.length)
  | byte, x, w, _ => w = [x]
  | word32, v, w, _ => w = ofWord32 v
  | word64, v, w, _ => w = ofWord64 v
  | count least, n, w, rest => ∃ u : UInt64, u.toNat = n ∧ Varint.decode w = some (u, w.length) ∧
      u.toNat ≤ rest.length / max least 1
  | take n, v, w, _ => w = v ∧ w.length = n

/-- Why a step fails when it takes `w` and leaves `rest`. It takes nothing if what it reads is not there, and a
number that it refuses. -/
def Refuses : Reading → (w rest : Bytes) → Prop
  | uvarint, w, rest => w = [] ∧ Varint.decode rest = none
  | uvarint32, w, rest => w = [] ∧ Varint.decode rest = none ∨
      ∃ u, Varint.decode w = some (u, w.length) ∧ 2 ^ 32 ≤ u.toNat
  | varint, w, rest => w = [] ∧ Varint.decodeSigned rest = none
  | byte, w, rest => w = [] ∧ rest = []
  | word32, w, rest => w = [] ∧ rest.length < 4
  | word64, w, rest => w = [] ∧ rest.length < 8
  | count least, w, rest => w = [] ∧ Varint.decode rest = none ∨
      ∃ u, Varint.decode w = some (u, w.length) ∧ rest.length / max least 1 < u.toNat
  | take n, w, rest => w = [] ∧ rest.length < n

/-- A step that takes `w` and leaves `rest` may end so. -/
def Ends (s : Reading) (w rest : Bytes) : Except BlockError s.Value → Prop
  | .ok v => s.Decodes v w rest
  | .error e => e = .invalidSize ∧ s.Refuses w rest

/-- **A step takes bytes off the front**, those of its value or those that it refuses. -/
theorem exists_taken (s : Reading) (b : Bytes) :
    ∃ w rest r, b = w ++ rest ∧ s.decoder.run b = (r, rest) ∧ s.Ends w rest r := by
  cases s with
  | uvarint =>
      rcases run_uvarint_cases b with ⟨v, w, rest, hb, hw, hrun⟩ | ⟨hnone, hrun⟩
      · exact ⟨w, rest, .ok v, hb, hrun, hw⟩
      · exact ⟨[], b, _, rfl, hrun, rfl, rfl, hnone⟩
  | uvarint32 =>
      rcases run_uvarint32_cases b with
        ⟨u, w, rest, hb, hw, v, hv, hrun⟩ | ⟨u, w, rest, hb, hw, hlarge, hrun⟩ | ⟨hnone, hrun⟩
      · exact ⟨w, rest, .ok v, hb, hrun, u, hv, hw⟩
      · exact ⟨w, rest, _, hb, hrun, rfl, .inr ⟨u, hw, hlarge⟩⟩
      · exact ⟨[], b, _, rfl, hrun, rfl, .inl ⟨rfl, hnone⟩⟩
  | varint =>
      rcases run_varint_cases b with ⟨x, w, rest, hb, hw, hrun⟩ | ⟨hnone, hrun⟩
      · exact ⟨w, rest, .ok x, hb, hrun, hw⟩
      · exact ⟨[], b, _, rfl, hrun, rfl, rfl, hnone⟩
  | byte =>
      rcases run_byte_cases b with ⟨x, rest, hb, hrun⟩ | ⟨hnil, hrun⟩
      · exact ⟨[x], rest, .ok x, hb, hrun, rfl⟩
      · exact ⟨[], b, _, rfl, hrun, rfl, rfl, hnil⟩
  | word32 =>
      rcases run_word32_cases b with ⟨v, rest, hb, hrun⟩ | ⟨hlt, hrun⟩
      · exact ⟨ofWord32 v, rest, .ok v, hb, hrun, rfl⟩
      · exact ⟨[], b, _, rfl, hrun, rfl, rfl, hlt⟩
  | word64 =>
      rcases run_word64_cases b with ⟨v, rest, hb, hrun⟩ | ⟨hlt, hrun⟩
      · exact ⟨ofWord64 v, rest, .ok v, hb, hrun, rfl⟩
      · exact ⟨[], b, _, rfl, hrun, rfl, rfl, hlt⟩
  | count least =>
      rcases run_count_cases least b with
        ⟨u, w, rest, hb, hw, hle, hrun⟩ | ⟨u, w, rest, hb, hw, hlt, hrun⟩ | ⟨hnone, hrun⟩
      · exact ⟨w, rest, .ok u.toNat, hb, hrun, u, rfl, hw, hle⟩
      · exact ⟨w, rest, _, hb, hrun, rfl, .inr ⟨u, hw, hlt⟩⟩
      · exact ⟨[], b, _, rfl, hrun, rfl, .inl ⟨rfl, hnone⟩⟩
  | take n =>
      rcases run_take_cases n b with ⟨w, rest, hb, hw, hrun⟩ | ⟨hlt, hrun⟩
      · exact ⟨w, rest, .ok w, hb, hrun, rfl, hw⟩
      · exact ⟨[], b, _, rfl, hrun, rfl, rfl, hlt⟩

/-- What a step takes is in front of what it leaves. -/
theorem taken_append_left (s : Reading) (b : Bytes) : s.taken b ++ s.left b = b := by
  obtain ⟨w, rest, r, rfl, hrun, -⟩ := s.exists_taken b
  rw [taken, left, hrun, List.length_append, Nat.add_sub_cancel, List.take_left]

/-- A step ends as what it takes and leaves says. -/
theorem ends_eval (s : Reading) (b : Bytes) : s.Ends (s.taken b) (s.left b) (s.decoder.eval b) := by
  obtain ⟨w, rest, r, rfl, hrun, hends⟩ := s.exists_taken b
  rw [taken, left, eval, hrun, List.length_append, Nat.add_sub_cancel, List.take_left]
  exact hends

/-! ## Steps one after another -/

/-- The bytes that remain after steps, each of which goes on where the one before it stopped. -/
def remaining : List Reading → Bytes → Bytes
  | [], b => b
  | s :: more, b => remaining more (s.left b)

/-- The bytes that steps use up, one after another. -/
def consumed : List Reading → Bytes → Bytes
  | [], _ => []
  | s :: more, b => s.taken b ++ consumed more (s.left b)

variable {steps : List Reading} {b : Bytes}

/-- **What steps use up is in front of what remains.** -/
theorem consumed_append_remaining (steps : List Reading) (b : Bytes) :
    consumed steps b ++ remaining steps b = b := by
  induction steps generalizing b with
  | nil => rfl
  | cons s more ih => rw [consumed, remaining, List.append_assoc, ih, taken_append_left]

theorem remaining_append (steps more : List Reading) (b : Bytes) :
    remaining (steps ++ more) b = remaining more (remaining steps b) := by
  induction steps generalizing b with
  | nil => rfl
  | cons s steps ih => exact ih (s.left b)

theorem consumed_append (steps more : List Reading) (b : Bytes) :
    consumed (steps ++ more) b = consumed steps b ++ consumed more (remaining steps b) := by
  induction steps generalizing b with
  | nil => rfl
  | cons s steps ih => rw [List.cons_append, consumed, consumed, remaining, ih, List.append_assoc]

/-- **Steps use up what they decode.** After any steps, whether they succeeded or not, the bytes used up are those
in front of the bytes that remain. The next step takes its bytes off the front of these. If it succeeds, its value
is decoded from all the bytes that it takes and from no others. If it fails, then with a fault of size; it takes
nothing, unless it is one of the two steps that decode a number and then refuse it, which take that number. -/
theorem steps_use_up_what_they_decode (steps : List Reading) (b : Bytes) :
    consumed steps b ++ remaining steps b = b ∧
    ∀ s : Reading,
      let here := remaining steps b
      consumed (steps ++ [s]) b = consumed steps b ++ s.taken here ∧
      here = s.taken here ++ remaining (steps ++ [s]) b ∧
      (∀ v, s.decoder.eval here = .ok v → s.Decodes v (s.taken here) (remaining (steps ++ [s]) b)) ∧
      ∀ e, s.decoder.eval here = .error e →
        e = .invalidSize ∧ s.Refuses (s.taken here) (remaining (steps ++ [s]) b) := by
  refine ⟨consumed_append_remaining steps b, fun s => ?_⟩
  intro here
  have hnext : remaining (steps ++ [s]) b = s.left here := remaining_append steps [s] b
  have hends := s.ends_eval here
  rw [hnext]
  refine ⟨?_, (s.taken_append_left here).symm, ?_, ?_⟩
  · rw [consumed_append, consumed, consumed, List.append_nil]
  · intro v hv
    rwa [hv] at hends
  · intro e he
    rwa [he] at hends

/-- A number above 32 bits and a count of too many elements are used up, what is not there is not. -/
example :
    let b : Bytes := [0x80, 0x80, 0x80, 0x80, 0x10, 9, 1, 2, 0x80]
    let steps := [uvarint32, count 2, word32, take 4, byte, varint, uvarint]
    consumed steps b = [0x80, 0x80, 0x80, 0x80, 0x10, 9, 1, 2] ∧ remaining steps b = [0x80] := by
  decide +kernel

end Reading

end SeriesBlock
