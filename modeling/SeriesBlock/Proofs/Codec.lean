import Mathlib.Algebra.BigOperators.Ring.Finset
import SeriesBlock.Proofs.Groups
import SeriesBlock.Proofs.Machine.Cursor

/-!
# The codec of numbers

Reading and writing numbers of variable length, said without the recursion that reads them. An unsigned
number ends with the first byte whose top bit is clear, and the bytes up to it stand for the sum of their
low seven bits, each weighted by its place (`groupSum`). Reading succeeds exactly if there are at most ten
of them and the sum fits 64 bits (`decode_eq_some_iff_groupSum`). Of all forms of a number the written one
is the shortest, and it is the one whose last byte is not zero (`Groups.eq_encodeNat_iff`). The main
statement is `unsigned_numbers_are_exact`.

A signed number is folded onto an unsigned one. Folding is what two shifts and an exclusive or do to the
word (`zigzag_eq_shifts`), and it is one to one (`zigzag_bijective`): `signed_numbers_are_folded`.
-/

set_option autoImplicit false

namespace SeriesBlock.Varint

/-! ## Unsigned numbers -/

/-- What the first `n` bytes stand for: the low seven bits of each, the least significant first. -/
def groupSum (b : Bytes) (n : Nat) : Nat :=
  ∑ i ∈ Finset.range n, (b.getD i 0).toNat % 128 * 128 ^ i

/-- The position of the byte that ends a number: the first one whose top bit is clear. -/
def lastGroup? (b : Bytes) : Option Nat :=
  b.findIdx? fun x => x < 0x80

section Forms

variable {b w : Bytes} {n last : Nat}

/-- The sum takes the first byte as it is and the others seven bits up. -/
theorem groupSum_cons (x : UInt8) (b : Bytes) (n : Nat) :
    groupSum (x :: b) (n + 1) = x.toNat % 128 + 128 * groupSum b n := by
  unfold groupSum
  rw [Finset.sum_range_succ', Finset.mul_sum, Nat.add_comm]
  congr 1
  · simp
  · apply Finset.sum_congr rfl
    intro i _
    rw [List.getD_cons_succ, Nat.pow_succ', Nat.mul_left_comm]

theorem lastGroup?_cons_of_lt {x : UInt8} (h : x < 0x80) : lastGroup? (x :: b) = some 0 := by
  simp [lastGroup?, List.findIdx?_cons, h]

theorem lastGroup?_cons_of_not_lt {x : UInt8} (h : ¬ x < 0x80) :
    lastGroup? (x :: b) = (lastGroup? b).map (· + 1) := by
  simp [lastGroup?, List.findIdx?_cons, h]

/-- Groups stand for their sum, and the first byte without a top bit is their last. -/
theorem Groups.groupSum_eq (h : Groups w n) (rest : Bytes) :
    ∃ last, lastGroup? (w ++ rest) = some last ∧ w.length = last + 1 ∧
      groupSum (w ++ rest) w.length = n := by
  induction h with
  | @last x hx =>
      refine ⟨0, lastGroup?_cons_of_lt hx, rfl, ?_⟩
      have h128 : x.toNat < 128 := hx
      simp [groupSum, Nat.mod_eq_of_lt h128]
  | @more x w n hx hw ih =>
      obtain ⟨last, hlast, hlen, hsum⟩ := ih
      refine ⟨last + 1, ?_, congrArg (· + 1) hlen, ?_⟩
      · rw [List.cons_append, lastGroup?_cons_of_not_lt hx, hlast, Option.map_some]
      · rw [List.cons_append, List.length_cons, groupSum_cons, hsum]

/-- The bytes up to the first without a top bit are groups. -/
theorem groups_take (h : lastGroup? b = some last) :
    Groups (b.take (last + 1)) (groupSum b (last + 1)) ∧ last < b.length := by
  induction b generalizing last with
  | nil => simp [lastGroup?] at h
  | cons x b ih =>
      by_cases hx : x < 0x80
      · rw [lastGroup?_cons_of_lt hx, Option.some.injEq] at h
        subst h
        have h128 : x.toNat < 128 := hx
        rw [groupSum_cons, groupSum, Finset.sum_range_zero, Nat.mod_eq_of_lt h128]
        exact ⟨.last hx, Nat.succ_pos _⟩
      · rw [lastGroup?_cons_of_not_lt hx] at h
        obtain ⟨k, hk, rfl⟩ := Option.map_eq_some_iff.1 h
        obtain ⟨hgroups, hlt⟩ := ih hk
        rw [groupSum_cons, List.take_succ_cons]
        exact ⟨.more hx hgroups, Nat.succ_lt_succ hlt⟩

/-! ### Reading -/

/-- **A number is read exactly** if it ends within ten bytes and fits 64 bits. -/
theorem decode_eq_some_iff_groupSum {v : UInt64} :
    decode b = some (v, n) ↔
      ∃ last, lastGroup? b = some last ∧ n = last + 1 ∧ n ≤ maxLength ∧ v.toNat = groupSum b n := by
  rw [decode_eq_some_iff]
  constructor
  · rintro ⟨w, rest, rfl, rfl, hw⟩
    obtain ⟨last, hlast, hlen, hsum⟩ := hw.groups.groupSum_eq rest
    exact ⟨last, hlast, hlen, hw.length_le, hsum.symm⟩
  · rintro ⟨last, hlast, rfl, hten, hv⟩
    obtain ⟨hgroups, hlt⟩ := groups_take hlast
    have hlen : (b.take (last + 1)).length = last + 1 := List.length_take_of_le hlt
    refine ⟨b.take (last + 1), b.drop (last + 1), (List.take_append_drop _ b).symm, hlen, ?_⟩
    rw [← hv] at hgroups
    exact ⟨hgroups, hlen.trans_le hten, v.toNat_lt⟩

/-- **What is refused**: a number that does not end, or that takes more than ten bytes or 64 bits. -/
theorem decode_eq_none_iff :
    decode b = none ↔
      ∀ last, lastGroup? b = some last → maxLength ≤ last ∨ 2 ^ 64 ≤ groupSum b (last + 1) := by
  constructor
  · intro h last hlast
    by_contra hfits
    rw [not_or, Nat.not_le, Nat.not_le] at hfits
    have hread : decode b = some (UInt64.ofNat (groupSum b (last + 1)), last + 1) :=
      decode_eq_some_iff_groupSum.2
        ⟨last, hlast, rfl, hfits.1, UInt64.toNat_ofNat_of_lt' hfits.2⟩
    rw [h] at hread
    cases hread
  · intro h
    cases hd : decode b with
    | none => rfl
    | some p =>
        obtain ⟨last, hlast, hn, hten, hv⟩ := decode_eq_some_iff_groupSum.1 hd
        rw [hn] at hten hv
        rcases h last hlast with hlong | hwide
        · exact absurd hten (Nat.not_le_of_lt (Nat.lt_succ_of_le hlong))
        · rw [← hv] at hwide
          exact absurd p.1.toNat_lt (Nat.not_lt_of_le hwide)

/-! ### Writing -/

/-- **No form of a number is shorter than the written one.** -/
theorem Groups.length_encodeNat_le (h : Groups w n) : (encodeNat n).length ≤ w.length := by
  induction h with
  | @last x hx =>
      have h128 : x.toNat < 128 := hx
      rw [encodeNat, if_pos h128]
      exact Nat.le_refl 1
  | @more x w n hx hw ih =>
      rw [encodeNat]
      split
      · exact Nat.succ_pos _
      · have hdiv : (x.toNat % 128 + 128 * n) / 128 = n := by omega
        rw [hdiv]
        exact Nat.succ_le_succ ih

/-- Groups for zero end in one. -/
theorem Groups.getLast?_of_zero (h : Groups w n) (hn : n = 0) : w.getLast? = some 0 := by
  induction h with
  | @last x hx =>
      have hzero : x = 0 := UInt8.toNat_inj.1 hn
      rw [List.getLast?_singleton, hzero]
  | @more x w n hx hw ih =>
      have hpos := hw.length_pos
      rw [List.getLast?_cons_of_ne_nil (List.ne_nil_of_length_pos hpos)]
      exact ih (by omega)

/-- A single group of zero stands for zero. -/
theorem Groups.eq_zero_of_length_one (h : Groups w n) (hlen : w.length = 1)
    (hlast : w.getLast? = some 0) : n = 0 := by
  cases h with
  | @last x hx =>
      rw [List.getLast?_singleton, Option.some.injEq] at hlast
      rw [hlast]
      rfl
  | @more x w n hx hw =>
      rw [List.length_cons] at hlen
      exact absurd hw.length_pos (by omega)

/-- **The written form is the one that does not end in a group of zero**, unless it is the only one. -/
theorem Groups.eq_encodeNat_iff (h : Groups w n) :
    w = encodeNat n ↔ w.length = 1 ∨ w.getLast? ≠ some 0 := by
  induction h with
  | @last x hx =>
      have h128 : x.toNat < 128 := hx
      rw [encodeNat, if_pos h128, UInt8.ofNat_toNat]
      simp
  | @more x w n hx hw ih =>
      have hne : w ≠ [] := List.ne_nil_of_length_pos hw.length_pos
      have h128 : ¬ x.toNat < 128 := hx
      rw [List.getLast?_cons_of_ne_nil hne, encodeNat]
      by_cases hn : n = 0
      -- the number ends before its groups do
      · have hlast := hw.getLast?_of_zero hn
        have hshort : x.toNat % 128 + 128 * n < 128 := by omega
        rw [if_pos hshort]
        simp [hne, hlast]
      · have hlong : ¬ x.toNat % 128 + 128 * n < 128 := by omega
        have hdiv : (x.toNat % 128 + 128 * n) / 128 = n := by omega
        have hbyte : UInt8.ofNat ((x.toNat % 128 + 128 * n) % 128 + 128) = x := by
          have hx256 := x.toNat_lt
          have hx' : (x.toNat % 128 + 128 * n) % 128 + 128 = x.toNat := by omega
          rw [hx', UInt8.ofNat_toNat]
        have hone : w.length = 1 → w.getLast? ≠ some 0 := fun hlen hlast =>
          hn (hw.eq_zero_of_length_one hlen hlast)
        rw [if_neg hlong, hbyte, hdiv, List.cons.injEq, eq_self, true_and, ih]
        simp [hne, or_iff_right_of_imp hone]

end Forms

/-- One step of the writer on the word itself: its low seven bits come first, and then what is left of it
after a shift. -/
theorem encode_eq_shift (v : UInt64) :
    encode v = if v < 0x80 then [v.toUInt8] else (v.toUInt8 ||| 0x80) :: encode (v >>> 7) := by
  have htop : ∀ m < 256, m ||| 128 = m % 128 + 128 := by decide +kernel
  have hlow : (v.toUInt8 ||| 0x80) = UInt8.ofNat (v.toNat % 128 + 128) := by
    apply UInt8.toNat_inj.1
    have hbyte := htop v.toUInt8.toNat v.toUInt8.toNat_lt
    rw [UInt8.toNat_ofNat_of_lt' (show v.toNat % 128 + 128 < 256 by omega), UInt8.toNat_or]
    rw [UInt64.toNat_toUInt8] at hbyte ⊢
    exact hbyte.trans (by omega)
  have hrest : (v >>> 7).toNat = v.toNat / 128 := by
    rw [UInt64.toNat_shiftRight]
    exact Nat.shiftRight_eq_div_pow v.toNat 7
  rw [hlow, encode, encode, hrest, encodeNat]
  rfl

/-- **Unsigned numbers are read and written exactly.** Gathering the groups in a word of 64 bits loses
nothing. A number is read exactly if its first byte without a top bit is among the first ten and the sum of
its groups fits 64 bits. Every number is read back from its written form, which is no longer than any other
form and differs from every form that ends in a group of zero. -/
theorem unsigned_numbers_are_exact :
    (∀ b, Machine.groups 0 0 0 b = pure (decode b)) ∧
    (∀ v, encode v = if v < 0x80 then [v.toUInt8] else (v.toUInt8 ||| 0x80) :: encode (v >>> 7)) ∧
    (∀ b v n, decode b = some (v, n) ↔
      ∃ last, lastGroup? b = some last ∧ n = last + 1 ∧ n ≤ 10 ∧ v.toNat = groupSum b n) ∧
    (∀ b, decode b = none ↔
      ∀ last, lastGroup? b = some last → 10 ≤ last ∨ 2 ^ 64 ≤ groupSum b (last + 1)) ∧
    (∀ v s, decode (encode v ++ s) = some (v, (encode v).length) ∧ (encode v).length ≤ 10) ∧
    ∀ b v n, decode b = some (v, n) →
      (encode v).length ≤ n ∧ (b.take n = encode v ↔ n = 1 ∨ (b.take n).getLast? ≠ some 0) := by
  refine ⟨Machine.groups_zero, encode_eq_shift, fun _ _ _ => decode_eq_some_iff_groupSum,
    fun _ => decode_eq_none_iff, ?_, ?_⟩
  · intro v s
    exact ⟨decode_encode v s, (decode_used (decode_encode v [])).2.2⟩
  · intro b v n h
    obtain ⟨w, rest, rfl, rfl, hw⟩ := decode_eq_some_iff.1 h
    rw [List.take_left' rfl]
    exact ⟨hw.groups.length_encodeNat_le, hw.groups.eq_encodeNat_iff⟩

/-- The number 300 in four groups of which two are zero, and a tenth group that holds two bits. -/
theorem unsigned_numbers_are_exact_threeHundred :
    decode [0xac, 0x82, 0x80, 0, 7] = some (300, 4) ∧ (encode 300).length ≤ 4 ∧
      [0xac, 0x82, 0x80, 0] ≠ encode 300 ∧
      decode [0xff, 0xff, 0xff, 0xff, 0xff, 0xff, 0xff, 0xff, 0xff, 2] = none := by
  obtain ⟨-, -, hread, hrefused, -, hforms⟩ := unsigned_numbers_are_exact
  have hsum : groupSum [0xac, 0x82, 0x80, 0, 7] 4 = 300 := by decide
  have h : decode [0xac, 0x82, 0x80, 0, 7] = some (300, 4) :=
    (hread _ _ _).2 ⟨3, by decide, rfl, by decide, hsum.symm⟩
  obtain ⟨hshort, hform⟩ := hforms _ _ _ h
  refine ⟨h, hshort, ?_, ?_⟩
  · intro heq
    rcases hform.1 heq with hone | hlast
    · exact absurd hone (by decide)
    · exact hlast rfl
  · rw [hrefused]
    intro last hlast
    have h9 : lastGroup? [0xff, 0xff, 0xff, 0xff, 0xff, 0xff, 0xff, 0xff, 0xff, 2] = some 9 := by decide
    rw [h9, Option.some.injEq] at hlast
    subst hlast
    exact Or.inr (by decide)

/-! ## Signed numbers -/

/-- **Folding puts the magnitude in front of the sign**, without leaving 64 bits. -/
theorem toNat_zigzag (x : Int64) :
    ((zigzag x).toNat : Int) = if 0 ≤ x.toInt then 2 * x.toInt else -2 * x.toInt - 1 := by
  have hlow := Int64.le_toInt x
  have hhigh := Int64.toInt_lt x
  rw [zigzag]
  by_cases h : 0 ≤ x.toInt
  · rw [if_pos h, if_pos h, UInt64.toNat_ofNat_of_lt' (show (2 * x.toInt).toNat < 2 ^ 64 by omega)]
    omega
  · rw [if_neg h, if_neg h,
      UInt64.toNat_ofNat_of_lt' (show (-2 * x.toInt - 1).toNat < 2 ^ 64 by omega)]
    omega

theorem zigzag_injective : Function.Injective zigzag :=
  Function.LeftInverse.injective unzigzag_zigzag

theorem zigzag_unzigzag (u : UInt64) : zigzag (unzigzag u) = u := by
  have hlt := u.toNat_lt
  have hfolded := toNat_zigzag (unzigzag u)
  apply UInt64.toNat_inj.1
  rw [unzigzag] at hfolded ⊢
  by_cases h : u.toNat % 2 = 0
  · rw [if_pos h, Int64.toInt_ofInt_of_le (by omega) (by omega), if_pos (by omega)] at hfolded
    rw [if_pos h]
    omega
  · rw [if_neg h, Int64.toInt_ofInt_of_le (by omega) (by omega), if_neg (by omega)] at hfolded
    rw [if_neg h]
    omega

theorem zigzag_bijective : Function.Bijective zigzag :=
  ⟨zigzag_injective, Function.RightInverse.surjective zigzag_unzigzag⟩

/-! ### Folding as the machine does it -/

/-- The bits of a number, read as an unsigned one. -/
theorem toNat_toUInt64 (x : Int64) :
    (x.toUInt64.toNat : Int) = if 0 ≤ x.toInt then x.toInt else x.toInt + 2 ^ 64 := by
  have hint : x.toInt = (x.toUInt64.toNat : Int).bmod (2 ^ 64) := by
    rw [← Int64.toInt_toBitVec, BitVec.toInt_eq_toNat_bmod]
    rfl
  have hlt := x.toUInt64.toNat_lt
  rw [hint, Int.bmod_def]
  omega

/-- Shifting left drops the top bit. -/
theorem toNat_shiftLeft_one (x : Int64) :
    (x <<< 1).toUInt64.toNat = 2 * x.toUInt64.toNat % 2 ^ 64 := by
  have hword : (x <<< 1).toUInt64 = x.toUInt64 <<< 1 := rfl
  rw [hword, UInt64.toNat_shiftLeft, Nat.shiftLeft_eq, Nat.mul_comm]
  rfl

/-- Shifting right by all but one bit leaves the sign in every bit. -/
theorem shiftRight_sign (x : Int64) : x >>> 63 = if 0 ≤ x.toInt then 0 else -1 := by
  have hlow := Int64.le_toInt x
  have hhigh := Int64.toInt_lt x
  have hsign : (x >>> 63).toInt = x.toInt / 2 ^ 63 := by
    rw [← Int64.toInt_toBitVec, Int64.toBitVec_shiftRight]
    show (x.toBitVec.sshiftRight 63).toInt = _
    rw [BitVec.toInt_sshiftRight, Int.shiftRight_eq_div_pow, Int64.toInt_toBitVec]
    rfl
  apply Int64.toInt_inj.1
  rw [hsign]
  by_cases h : 0 ≤ x.toInt
  · rw [if_pos h, Int.ediv_eq_zero_of_lt h hhigh, Int64.toInt_zero]
  · rw [if_neg h]
    show x.toInt / 2 ^ 63 = -1
    omega

/-- **Folding is two shifts and an exclusive or**: the number is doubled, and turned over if it is
negative. -/
theorem zigzag_eq_shifts (x : Int64) : zigzag x = ((x <<< 1) ^^^ (x >>> 63)).toUInt64 := by
  have hfolded := toNat_zigzag x
  have hbits := toNat_toUInt64 x
  have hlow := Int64.le_toInt x
  have hhigh := Int64.toInt_lt x
  apply UInt64.toNat_inj.1
  rw [shiftRight_sign]
  by_cases h : 0 ≤ x.toInt
  · rw [if_pos h] at hfolded hbits ⊢
    rw [Int64.xor_zero, toNat_shiftLeft_one]
    omega
  · rw [if_neg h] at hfolded hbits ⊢
    rw [Int64.xor_neg_one, Int64.toUInt64_not, UInt64.toNat_not, toNat_shiftLeft_one, UInt64.size]
    omega

/-- Reading a signed number is reading an unsigned one and unfolding it. -/
theorem decodeSigned_eq_some_iff {b : Bytes} {x : Int64} {n : Nat} :
    decodeSigned b = some (x, n) ↔ decode b = some (zigzag x, n) := by
  rw [decodeSigned, Option.map_eq_some_iff]
  constructor
  · rintro ⟨⟨u, used⟩, hu, he⟩
    cases he
    rw [hu, zigzag_unzigzag]
  · intro h
    exact ⟨(zigzag x, n), h, Prod.ext (unzigzag_zigzag x) rfl⟩

/-- **Signed numbers are folded onto unsigned ones**, one to one, as the machine does it with shifts. Every
number is read back from its written form. A signed number stands exactly where the unsigned one does that
it is folded onto, and it is written as that one. -/
theorem signed_numbers_are_folded :
    (∀ x s, decodeSigned (encodeSigned x ++ s) = some (x, (encodeSigned x).length)) ∧
    (∀ b x n, decodeSigned b = some (x, n) →
      ∃ u, decode b = some (u, n) ∧ unzigzag u = x ∧ encodeSigned x = encode u) ∧
    Function.Bijective zigzag ∧
    (∀ x, unzigzag (zigzag x) = x) ∧
    (∀ x : Int64, ((zigzag x).toNat : Int) = if 0 ≤ x.toInt then 2 * x.toInt else -2 * x.toInt - 1) ∧
    (∀ x, zigzag x = ((x <<< 1) ^^^ (x >>> 63)).toUInt64) ∧
    ∀ u, unzigzag u = if u &&& 1 = 0 then (u >>> 1).toInt64 else ~~~(u >>> 1).toInt64 := by
  refine ⟨decodeSigned_encodeSigned, ?_, zigzag_bijective, unzigzag_zigzag, toNat_zigzag,
    zigzag_eq_shifts, Machine.unzigzag_eq⟩
  intro b x n h
  exact ⟨zigzag x, decodeSigned_eq_some_iff.1 h, unzigzag_zigzag x, rfl⟩

/-- The least number is folded onto the greatest unsigned one, which takes all ten groups. -/
theorem signed_numbers_are_folded_minValue :
    let written : Bytes := [0xff, 0xff, 0xff, 0xff, 0xff, 0xff, 0xff, 0xff, 0xff, 1]
    decodeSigned (written ++ [7]) = some (Int64.minValue, 10) ∧
      decode (written ++ [7]) = some (18446744073709551615, 10) ∧
      encodeSigned Int64.minValue = encode 18446744073709551615 := by
  intro written
  obtain ⟨-, hread, -⟩ := signed_numbers_are_folded
  have h : decodeSigned (written ++ [7]) = some (Int64.minValue, 10) := by decide
  obtain ⟨u, hu, -, hwritten⟩ := hread _ _ _ h
  have hgreatest : decode (written ++ [7]) = some (18446744073709551615, 10) := by decide
  rw [hgreatest, Option.some.injEq, Prod.mk.injEq] at hu
  exact ⟨h, hgreatest, hu.1 ▸ hwritten⟩

end SeriesBlock.Varint
