import SeriesBlock.Proofs.Steps

/-!
# Written numbers

Every number of 64 bits is read back from its written form, whatever bytes follow
(`decode_encodeNat`, `decodeSigned_encodeSigned`), and so are the decoders that read such numbers
(`run_uvarint_encodeNat`, `run_varint_encodeSigned`, ...). The bound on the groups read so far is the
induction's invariant: `k + 1` groups hold the numbers below `2 ^ (7 * k + 1)`, because the tenth
group of a number of 64 bits holds one bit.
-/

set_option autoImplicit false

namespace SeriesBlock

namespace Varint

/-! ## Unsigned numbers -/

theorem length_encodeNat_pos (n : Nat) : 0 < (encodeNat n).length := by
  rw [encodeNat]
  by_cases h : n < 128
  · rw [if_pos h]
    exact Nat.one_pos
  · rw [if_neg h]
    exact Nat.succ_pos _

/-- A last group is read as it stands; where no other may follow it holds one bit. -/
theorem decodeGroups_last {k n : Nat} (hn : n < 128) (hk : k = 0 → n < 2) (s : Bytes) :
    decodeGroups (k + 1) (UInt8.ofNat n :: s) = some (n, 1) := by
  have hv : (UInt8.ofNat n).toNat = n := UInt8.toNat_ofNat_of_lt' (by
    show n < 256
    omega)
  have hlast : UInt8.ofNat n < 0x80 := by
    rw [UInt8.lt_iff_toNat_lt, hv]
    exact hn
  have hbit : ¬ (k = 0 ∧ 1 < UInt8.ofNat n) := by
    rintro ⟨h0, h1⟩
    rw [UInt8.lt_iff_toNat_lt, hv] at h1
    have h2 := hk h0
    have h1' : 1 < n := h1
    omega
  rw [decodeGroups, if_pos hlast, if_neg hbit, hv]

/-- A group that others follow adds its seven bits to what they stand for. -/
theorem decodeGroups_inner {k n : Nat} (s : Bytes) :
    decodeGroups (k + 1) (UInt8.ofNat (n % 128 + 128) :: s) =
      (decodeGroups k s).map fun p => (n % 128 + 128 * p.1, p.2 + 1) := by
  have hv : (UInt8.ofNat (n % 128 + 128)).toNat = n % 128 + 128 := UInt8.toNat_ofNat_of_lt' (by
    show n % 128 + 128 < 256
    omega)
  have hmore : ¬ UInt8.ofNat (n % 128 + 128) < 0x80 := by
    rw [UInt8.lt_iff_toNat_lt, hv]
    show ¬ n % 128 + 128 < 128
    omega
  have hbits : (n % 128 + 128) % 128 = n % 128 := by omega
  rw [decodeGroups, if_neg hmore, hv, hbits]

/-- **Written groups are read back** from in front of any bytes, if there may be as many. -/
theorem decodeGroups_encodeNat {k n : Nat} (h : n < 2 ^ (7 * k + 1)) (s : Bytes) :
    decodeGroups (k + 1) (encodeNat n ++ s) = some (n, (encodeNat n).length) := by
  induction k generalizing n with
  | zero =>
      have hn : n < 2 := h
      rw [encodeNat, if_pos (by omega)]
      exact decodeGroups_last (by omega) (fun _ => hn) s
  | succ k ih =>
      rw [encodeNat]
      by_cases hn : n < 128
      · rw [if_pos hn]
        exact decodeGroups_last hn (fun h0 => by cases h0) s
      -- one group less holds the rest of the number
      · have hpow : 2 ^ (7 * (k + 1) + 1) = 2 ^ (7 * k + 1) * 128 := by
          rw [Nat.mul_add, Nat.add_right_comm, Nat.pow_add]
        have hdiv : n / 128 < 2 ^ (7 * k + 1) := Nat.div_lt_of_lt_mul (by omega)
        rw [if_neg hn, List.cons_append, decodeGroups_inner, ih hdiv, Option.map_some,
          List.length_cons, Nat.mod_add_div]

theorem decode_encodeNat {n : Nat} (h : n < 2 ^ 64) (s : Bytes) :
    decode (encodeNat n ++ s) = some (UInt64.ofNat n, (encodeNat n).length) := by
  rw [decode, show maxLength = 9 + 1 from rfl, decodeGroups_encodeNat h, Option.map_some]

/-! ## Signed numbers -/

/-- **Unfolding takes folding back.** -/
theorem unzigzag_zigzag (x : Int64) : unzigzag (zigzag x) = x := by
  have hlow := Int64.le_toInt x
  have hhigh := Int64.toInt_lt x
  unfold zigzag unzigzag
  by_cases h : 0 ≤ x.toInt
  · have hv : (UInt64.ofNat (2 * x.toInt).toNat).toNat = (2 * x.toInt).toNat :=
      UInt64.toNat_ofNat_of_lt' (by
        show (2 * x.toInt).toNat < 2 ^ 64
        omega)
    rw [if_pos h, hv, if_pos (by omega)]
    have hx : (((2 * x.toInt).toNat / 2 : Nat) : Int) = x.toInt := by omega
    rw [hx, Int64.ofInt_toInt]
  · have hv : (UInt64.ofNat (-2 * x.toInt - 1).toNat).toNat = (-2 * x.toInt - 1).toNat :=
      UInt64.toNat_ofNat_of_lt' (by
        show (-2 * x.toInt - 1).toNat < 2 ^ 64
        omega)
    rw [if_neg h, hv, if_neg (by omega)]
    have hx : -(((-2 * x.toInt - 1).toNat / 2 : Nat) : Int) - 1 = x.toInt := by omega
    rw [hx, Int64.ofInt_toInt]

theorem decode_encode (v : UInt64) (s : Bytes) :
    decode (encode v ++ s) = some (v, (encode v).length) := by
  unfold encode
  rw [decode_encodeNat v.toNat_lt, UInt64.ofNat_toNat]

theorem decodeSigned_encodeSigned (x : Int64) (s : Bytes) :
    decodeSigned (encodeSigned x ++ s) = some (x, (encodeSigned x).length) := by
  unfold encodeSigned
  rw [decodeSigned, decode_encode, Option.map_some]
  show some (unzigzag (zigzag x), _) = _
  rw [unzigzag_zigzag]

end Varint

/-! ## Decoders of numbers -/

namespace Decoder

open Varint

theorem run_uvarint_encodeNat {n : Nat} (h : n < 2 ^ 64) (s : Bytes) :
    uvarint.run (encodeNat n ++ s) = (.ok (UInt64.ofNat n), s) := by
  refine run_uvarint_eq_ok.2 ⟨_, decode_encodeNat h s, ?_⟩
  exact List.drop_left.symm

theorem run_varint_encodeSigned (x : Int64) (s : Bytes) :
    varint.run (encodeSigned x ++ s) = (.ok x, s) := by
  refine run_varint_eq_ok.2 ⟨_, decodeSigned_encodeSigned x s, ?_⟩
  exact List.drop_left.symm

theorem run_uvarint32_encodeNat (v : UInt32) (s : Bytes) :
    uvarint32.run (encodeNat v.toNat ++ s) = (.ok v, s) := by
  have h64 : v.toNat < 2 ^ 64 := Nat.lt_trans v.toNat_lt (by decide)
  exact run_uvarint32_eq_ok.2 ⟨_, run_uvarint_encodeNat h64 s, UInt64.toNat_ofNat_of_lt' h64⟩

end Decoder

end SeriesBlock
