import SeriesBlock.Proofs.Machine.Primitive

/-!
# Cursors on the machine

A cursor is the bytes that remain. Its steps are written out in the operations of the machine: a
number of variable length is gathered group by group with shifts, fixed-width words are put together
from single bytes, and each step moves on by slicing or splitting what remains. None of them traps,
and each ends in the outcome of the decoder of its name (`uvarint_eq`, `take_eq`, ...).

`bind_step` carries this over to steps in sequence.
-/

set_option autoImplicit false

namespace SeriesBlock.Machine

open Run

variable {α β : Type}

/-! ## Steps in sequence -/

/-- A run that ends as a decoder does, followed by runs that do, ends as the decoders in sequence.
What the first one read is known to the second. -/
theorem bind_step {m : Run (α × Bytes)} {d : Decoder α} {f : α → Decoder β}
    {g : α × Bytes → Run (β × Bytes)} {b : Bytes} (hm : m = ends (d.step b))
    (hg : ∀ a rest, d.run b = (.ok a, rest) → g (a, rest) = ends ((f a).step rest)) :
    (m >>= g) = ends ((d >>= f).step b) := by
  rw [Decoder.step_bind]
  refine bind_ends hm ?_
  rintro ⟨a, rest⟩ h
  exact hg a rest (Decoder.step_eq_ok.1 h)

/-- The same for the outcome of the decoders alone. -/
theorem bind_eval {m : Run (α × Bytes)} {d : Decoder α} {f : α → Decoder β}
    {g : α × Bytes → Run β} {b : Bytes} (hm : m = ends (d.step b))
    (hg : ∀ a rest, d.run b = (.ok a, rest) → g (a, rest) = ends ((f a).eval rest)) :
    (m >>= g) = ends ((d >>= f).eval b) := by
  rw [Decoder.eval_bind]
  refine bind_ends hm ?_
  rintro ⟨a, rest⟩ h
  exact hg a rest (Decoder.step_eq_ok.1 h)

/-- The cursor at a position of a buffer. -/
def cursorAt (b : Bytes) (position : Nat) : Run Bytes :=
  ends (b.tailFrom position)

/-! ## Bytes -/

/-- The next `n` bytes. -/
def take (n : Nat) (d : Bytes) : Run (Bytes × Bytes) :=
  if d.length < n then fail .invalidSize else splitAt d n

theorem take_eq (n : Nat) (d : Bytes) : take n d = ends ((Decoder.take n).step d) := by
  unfold take Decoder.step
  rw [Decoder.run_take]
  by_cases h : n ≤ d.length
  · rw [if_neg (by omega), if_pos h, splitAt_of_le h]
    rfl
  · rw [if_pos (by omega), if_neg h]
    rfl

/-- The next byte. -/
def byte : Bytes → Run (UInt8 × Bytes)
  | [] => fail .invalidSize
  | x :: rest => pure (x, rest)

theorem byte_eq (d : Bytes) : byte d = ends (Decoder.byte.step d) := by
  cases d with
  | nil => rfl
  | cons x rest => rfl

/-! ## Words -/

/-- The word in the first four bytes of a piece. -/
def word32Of (piece : Bytes) : Run UInt32 := do
  let a ← index piece 0
  let b ← index piece 1
  let c ← index piece 2
  let d ← index piece 3
  pure (UInt32.ofNat (Bytes.toNat [a, b, c, d]))

theorem word32Of_eq {piece : Bytes} (h : piece.length = 4) :
    word32Of piece = pure (UInt32.ofNat (Bytes.toNat piece)) := by
  match piece, h with
  | [_, _, _, _], _ => rfl

/-- The next four bytes as a word. -/
def word32 (d : Bytes) : Run (UInt32 × Bytes) := do
  let (w, d) ← take 4 d
  let v ← word32Of w
  pure (v, d)

theorem word32_eq (d : Bytes) : word32 d = ends (Decoder.word32.step d) := by
  refine bind_step (take_eq 4 d) ?_
  intro w rest h
  obtain ⟨-, hl⟩ := Decoder.run_take_eq_ok.1 h
  show (word32Of w >>= fun v => pure (v, rest)) = _
  rw [word32Of_eq hl]
  rfl

/-- The next eight bytes as a word, by way of a place of eight bytes. -/
def word64 (d : Bytes) : Run (UInt64 × Bytes) := do
  let (w, d) ← take 8 d
  let w ← copyTo 8 w
  pure (UInt64.ofNat (Bytes.toNat w), d)

theorem word64_eq (d : Bytes) : word64 d = ends (Decoder.word64.step d) := by
  refine bind_step (take_eq 8 d) ?_
  intro w rest h
  obtain ⟨-, hl⟩ := Decoder.run_take_eq_ok.1 h
  show (copyTo 8 w >>= fun w => pure (UInt64.ofNat (Bytes.toNat w), rest)) = _
  rw [copyTo_of_length hl]
  rfl

/-! ## Numbers of variable length -/

/-- Gathers groups into a word, after `i` groups that gave `out` and take `shift` bits. -/
def groups (out : UInt64) (shift i : Nat) : Bytes → Run (Option (UInt64 × Nat))
  | [] => pure none
  | x :: rest =>
    if i = 10 then pure none
    else if x < 0x80 then
      if i = 9 ∧ 1 < x then pure none
      else do
        let high ← shiftLeft x.toUInt64 shift
        let used ← add i 1
        pure (some (out ||| high, used))
    else do
      let high ← shiftLeft (x &&& 0x7f).toUInt64 shift
      let next ← addIn 32 shift 7
      groups (out ||| high) next (i + 1) rest

/-- The next unsigned number. -/
def uvarint (d : Bytes) : Run (UInt64 × Bytes) := do
  match ← groups 0 0 0 d with
  | some (v, used) =>
    let rest ← slice d used d.length
    pure (v, rest)
  | none => fail .invalidSize

/-- A group that is put above the bits gathered so far adds to them. -/
theorem toNat_or_shiftLeft {out y : UInt64} {s : Nat} (hs : s < 64) (ho : out.toNat < 2 ^ s)
    (hy : 2 ^ s * y.toNat < 2 ^ 64) :
    (out ||| y <<< UInt64.ofNat s).toNat = out.toNat + 2 ^ s * y.toNat := by
  have hn : (UInt64.ofNat s).toNat = s := UInt64.toNat_ofNat_of_lt' (by
    show s < 2 ^ 64
    omega)
  have hshift : (y <<< UInt64.ofNat s).toNat = y.toNat <<< s := by
    rw [UInt64.toNat_shiftLeft, hn, Nat.mod_eq_of_lt hs, Nat.mod_eq_of_lt]
    rw [Nat.shiftLeft_eq, Nat.mul_comm]
    exact hy
  rw [UInt64.toNat_or, hshift, Nat.or_comm, ← Nat.shiftLeft_add_eq_or_of_lt ho, Nat.shiftLeft_eq,
    Nat.mul_comm, Nat.add_comm]

theorem toNat_low_bits (x : UInt8) : (x &&& 0x7f).toUInt64.toNat = x.toNat % 128 := by
  rw [UInt8.toNat_toUInt64, UInt8.toNat_and]
  exact Nat.and_two_pow_sub_one_eq_mod x.toNat 7

/-- The last group of a number fits above those before it; the tenth group holds one bit. -/
theorem last_group_fits {x : UInt8} {i : Nat} (hi : i ≤ 9) (hx : x < 0x80)
    (hten : ¬ (i = 9 ∧ 1 < x)) : 2 ^ (7 * i) * x.toUInt64.toNat < 2 ^ 64 := by
  rw [UInt8.toNat_toUInt64]
  by_cases h9 : i = 9
  · subst h9
    have h1 : x.toNat ≤ 1 := UInt8.not_lt.1 fun h => hten ⟨rfl, h⟩
    omega
  · have h127 : x.toNat < 128 := hx
    have hpow : 2 ^ (7 * i) ≤ 2 ^ 56 := Nat.pow_le_pow_right (by decide) (by omega)
    have hm := Nat.mul_le_mul hpow (Nat.le_of_lt_succ h127)
    omega

/-- A group that others follow fits above those before it, if it is not the tenth. -/
theorem inner_group_fits {i g : Nat} (hi : i < 9) (hg : g < 128) : 2 ^ (7 * i) * g < 2 ^ 63 := by
  have hpow : 2 ^ (7 * i) ≤ 2 ^ 56 := Nat.pow_le_pow_right (by decide) (by omega)
  have hm := Nat.mul_le_mul hpow (Nat.le_of_lt_succ hg)
  omega

theorem add_mul_lt {out w g : Nat} (ho : out < w) (hg : g < 128) : out + w * g < w * 128 := by
  have hm := Nat.mul_le_mul_left w (Nat.succ_le_of_lt hg)
  rw [Nat.mul_succ] at hm
  omega

/-- The low bits of a group that others follow add to what was gathered before it. -/
theorem toNat_or_low_bits {out : UInt64} {i : Nat} (hi : i < 9) (ho : out.toNat < 2 ^ (7 * i))
    (x : UInt8) : (out ||| (x &&& 0x7f).toUInt64 <<< UInt64.ofNat (7 * i)).toNat =
      out.toNat + 2 ^ (7 * i) * (x.toNat % 128) := by
  have hfit := inner_group_fits hi (Nat.mod_lt x.toNat (by decide))
  have hsum := toNat_or_shiftLeft (y := (x &&& 0x7f).toUInt64) (by omega) ho (by
    rw [toNat_low_bits]
    omega)
  rw [toNat_low_bits] at hsum
  exact hsum

/-- A group `g` above the bits `out`, or below the groups that stand for the first of `p`: the number
gathered is the same, read from either end. -/
theorem gathered_eq (out w g i : Nat) (p : Nat × Nat) :
    (UInt64.ofNat (out + w * g + w * 128 * p.1), i + 1 + p.2) =
      (UInt64.ofNat (out + w * (g + 128 * p.1)), i + (p.2 + 1)) := by
  rw [Nat.mul_add, Nat.mul_assoc, Nat.add_assoc, Nat.add_assoc, Nat.add_comm 1 p.2]

/-- Gathering ends in the exact number that the groups stand for, as a word. -/
theorem groups_eq (b : Bytes) (out : UInt64) {i : Nat} (hi : i ≤ 10)
    (ho : out.toNat < 2 ^ (7 * i)) :
    groups out (7 * i) i b = pure ((Varint.decodeGroups (10 - i) b).map fun p =>
      (UInt64.ofNat (out.toNat + 2 ^ (7 * i) * p.1), i + p.2)) := by
  induction b generalizing out i with
  | nil => cases 10 - i <;> rfl
  | cons x rest ih =>
      rw [groups]
      by_cases h10 : i = 10
      · rw [if_pos h10, h10]
        rfl
      · obtain ⟨k, hk⟩ : ∃ k, 10 - i = k + 1 := ⟨9 - i, by omega⟩
        have hlt : 7 * i < 64 := by omega
        rw [if_neg h10, hk, Varint.decodeGroups]
        -- the last group adds its bits to those gathered so far, and they do not meet
        by_cases hlast : x < 0x80
        · have hk9 : k = 0 ∧ 1 < x ↔ i = 9 ∧ 1 < x := and_congr_left fun _ => by omega
          rw [if_pos hlast, if_pos hlast]
          by_cases hten : i = 9 ∧ 1 < x
          · rw [if_pos hten, if_pos (hk9.2 hten)]
            rfl
          · have hsum := toNat_or_shiftLeft hlt ho (last_group_fits (by omega) hlast hten)
            rw [UInt8.toNat_toUInt64] at hsum
            rw [if_neg hten, if_neg (mt hk9.1 hten), shiftLeft_of_lt hlt, pure_then,
              add_of_lt (by omega), pure_then, Option.map_some, ← hsum, UInt64.ofNat_toNat]
        · rw [if_neg hlast, if_neg hlast, shiftLeft_of_lt hlt, pure_then, addIn_of_lt (by omega),
            pure_then]
          have hnext : 10 - (i + 1) = k := by omega
          by_cases h9 : i = 9
          · -- the tenth group may not have another one after it
            subst h9
            have hr := ih (out ||| (x &&& 0x7f).toUInt64 <<< UInt64.ofNat (7 * 9))
              (i := 9 + 1) (by omega) (Nat.lt_trans (UInt64.toNat_lt _) (by decide))
            have hk0 : k = 0 := by omega
            rw [Nat.mul_add] at hr
            rw [hr, hk0]
            rfl
          -- another group follows: the invariant moves up by seven bits
          · have hg : x.toNat % 128 < 128 := Nat.mod_lt _ (by decide)
            have hsum := toNat_or_low_bits (by omega) ho x
            have hpow : 2 ^ (7 * (i + 1)) = 2 ^ (7 * i) * 128 := by
              rw [Nat.mul_add, Nat.pow_add]
            have hr := ih (out ||| (x &&& 0x7f).toUInt64 <<< UInt64.ofNat (7 * i))
              (i := i + 1) (by omega) (by rw [hsum, hpow]; exact add_mul_lt ho hg)
            rw [hnext, hsum, hpow] at hr
            rw [show 7 * i + 7 = 7 * (i + 1) from rfl, hr, Option.map_map]
            exact congrArg (fun f => pure (Option.map f (Varint.decodeGroups k rest)))
              (funext (gathered_eq out.toNat (2 ^ (7 * i)) (x.toNat % 128) i))

/-- Gathering from the start gives the number at the front. -/
theorem groups_zero (d : Bytes) : groups 0 0 0 d = pure (Varint.decode d) := by
  have h := groups_eq d 0 (i := 0) (by omega) (by decide)
  simpa [Varint.decode, Varint.maxLength] using h

theorem uvarint_eq (d : Bytes) : uvarint d = ends (Decoder.uvarint.step d) := by
  unfold uvarint
  rw [groups_zero, pure_then]
  cases h : Varint.decode d with
  | none =>
      have hs : Decoder.uvarint.run d = (.error .invalidSize, d) := by
        rw [Decoder.run, Decoder.uvarint, h]
      rw [Decoder.step_of_run_error hs]
      rfl
  | some p =>
      obtain ⟨v, used⟩ := p
      have hu := (Varint.decode_used h).2.1
      -- what was used lies inside the cursor
      have hs : slice d used (used + (d.length - used)) =
          pure ((d.drop used).take (d.length - used)) := slice_of_le d (by omega)
      rw [Nat.add_sub_cancel' hu, List.take_of_length_le (Nat.le_of_eq List.length_drop)] at hs
      rw [Decoder.step_eq_ok.2 (Decoder.run_uvarint_eq_ok.2 ⟨used, h, rfl⟩)]
      show (slice d used d.length >>= fun rest => pure (v, rest)) = _
      rw [hs]
      rfl

/-- The next unsigned number that fits 32 bits. -/
def uvarint32 (d : Bytes) : Run (UInt32 × Bytes) := do
  let (v, d) ← uvarint d
  if v.toNat < UInt32.size then pure (UInt32.ofNat v.toNat, d) else fail .invalidSize

theorem uvarint32_eq (d : Bytes) : uvarint32 d = ends (Decoder.uvarint32.step d) := by
  refine bind_step (uvarint_eq d) ?_
  intro v rest _
  by_cases h : v.toNat < UInt32.size
  · simp only [if_pos h]
    rfl
  · simp only [if_neg h]
    rfl

/-- The next signed number: the unsigned one, halved, and turned over if it was odd. -/
def varint (d : Bytes) : Run (Int64 × Bytes) := do
  let (v, d) ← uvarint d
  let half := (v >>> 1).toInt64
  if v &&& 1 = 0 then pure (half, d) else pure (~~~half, d)

theorem toNat_half (v : UInt64) : (v >>> 1).toNat = v.toNat / 2 := by
  rw [UInt64.toNat_shiftRight]
  exact Nat.shiftRight_eq_div_pow v.toNat 1

theorem and_one_eq_zero {v : UInt64} : v &&& 1 = 0 ↔ v.toNat % 2 = 0 := by
  rw [← UInt64.toNat_inj, UInt64.toNat_and]
  show v.toNat &&& 1 = 0 ↔ v.toNat % 2 = 0
  rw [Nat.and_one_is_mod]

/-- Halving and turning over is unfolding. -/
theorem unzigzag_eq (v : UInt64) :
    Varint.unzigzag v = if v &&& 1 = 0 then (v >>> 1).toInt64 else ~~~(v >>> 1).toInt64 := by
  have hhalf : (v >>> 1).toInt64 = Int64.ofInt (v.toNat / 2 : Nat) := by
    rw [← toNat_half, Int64.ofInt_eq_ofNat, ← UInt64.toInt64_ofNat', UInt64.ofNat_toNat]
  have hnot : ~~~(v >>> 1).toInt64 = Int64.ofInt (-(v.toNat / 2 : Nat) - 1) := by
    rw [Int64.not_eq_neg_sub, hhalf, Int64.ofInt_sub, Int64.ofInt_neg]
    rfl
  rw [hnot, hhalf]
  unfold Varint.unzigzag
  by_cases h : v.toNat % 2 = 0
  · rw [if_pos h, if_pos (and_one_eq_zero.2 h)]
  · rw [if_neg h, if_neg (mt and_one_eq_zero.1 h)]

/-- A signed number is an unsigned one, unfolded. -/
theorem varint_step (d : Bytes) :
    Decoder.varint.step d =
      Decoder.uvarint.step d >>= fun p => .ok (Varint.unzigzag p.1, p.2) := by
  unfold Decoder.step Decoder.run Decoder.varint Decoder.uvarint Varint.decodeSigned
  cases Varint.decode d with
  | none => rfl
  | some p => rfl

theorem varint_eq (d : Bytes) : varint d = ends (Decoder.varint.step d) := by
  rw [varint_step]
  refine bind_ends (uvarint_eq d) ?_
  rintro ⟨v, rest⟩ _
  show (if v &&& 1 = 0 then pure ((v >>> 1).toInt64, rest)
    else pure (~~~(v >>> 1).toInt64, rest) : Run (Int64 × Bytes)) = _
  rw [unzigzag_eq]
  by_cases h : v &&& 1 = 0
  · rw [if_pos h, if_pos h]
    rfl
  · rw [if_neg h, if_neg h]
    rfl

/-- The number of elements to follow, of which each takes at least `least` bytes. -/
def count (least : Nat) (d : Bytes) : Run (Nat × Bytes) := do
  let (v, d) ← uvarint d
  let most ← div d.length (max least 1)
  if most < v.toNat then fail .invalidSize else pure (v.toNat, d)

theorem count_eq (least : Nat) (d : Bytes) : count least d = ends ((Decoder.count least).step d) := by
  refine bind_step (uvarint_eq d) ?_
  intro v rest _
  show (div rest.length (max least 1) >>= fun most => _) = _
  rw [div_of_ne (by omega), pure_then]
  -- the check of the decoder, by what remains
  have hs : ∀ n : Nat, (Decoder.remaining >>= fun left =>
      if n ≤ left / max least 1 then pure n else Decoder.fail .invalidSize).step rest =
      if n ≤ rest.length / max least 1 then .ok (n, rest) else .error .invalidSize := by
    intro n
    rw [Decoder.step_bind]
    show (if _ then _ else _ : Decoder Nat).step rest = _
    by_cases h : n ≤ rest.length / max least 1
    · rw [if_pos h, if_pos h]
      rfl
    · rw [if_neg h, if_neg h]
      rfl
  rw [hs]
  by_cases h : v.toNat ≤ rest.length / max least 1
  · rw [if_pos h, if_neg (by omega)]
    rfl
  · rw [if_neg h, if_pos (by omega)]
    rfl

end SeriesBlock.Machine
