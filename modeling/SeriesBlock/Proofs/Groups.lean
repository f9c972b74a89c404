import SeriesBlock.Proofs.Numbers

/-!
# Written forms of numbers

The grammar of unsigned numbers in groups of seven bits (`Groups`), apart from how they are read. A
written form is a run of at most ten groups for a number of 64 bits (`Written`); a number has several
of these, since groups of zero may stand at the end. Reading takes exactly a written form off the front
of a byte string (`decode_eq_some_iff`), and so do the decoders of lengths and offsets
(`run_uvarint_eq_ok_iff`, `run_uvarint32_eq_ok_iff`).
-/

set_option autoImplicit false

namespace SeriesBlock

namespace Varint

/-- Groups of seven bits, the least significant first, all but the last with the top bit set, and the
number they stand for. -/
inductive Groups : Bytes → Nat → Prop where
  | last {x : UInt8} : x < 0x80 → Groups [x] x.toNat
  | more {x : UInt8} {w : Bytes} {n : Nat} : ¬ x < 0x80 → Groups w n →
      Groups (x :: w) (x.toNat % 128 + 128 * n)

/-- A written form of a 64-bit number. -/
structure Written (w : Bytes) (n : Nat) : Prop where
  groups : Groups w n
  length_le : w.length ≤ maxLength
  lt : n < 2 ^ 64

theorem Groups.length_pos {w : Bytes} {n : Nat} (h : Groups w n) : 0 < w.length := by
  cases h with
  | last hx => exact Nat.one_pos
  | more hx hw => exact Nat.succ_pos _

/-- One more group holds seven more bits. -/
theorem two_pow_groups (k : Nat) : 2 ^ (7 * (k + 1) + 1) = 128 * 2 ^ (7 * k + 1) := by
  rw [Nat.mul_add, Nat.add_right_comm, Nat.pow_add, Nat.mul_comm]

/-- What was read are groups at the front. Of `k + 1` groups the last may hold one bit, so they hold the
numbers below `2 ^ (7 * k + 1)`. -/
theorem groups_of_decodeGroups {k : Nat} {b : Bytes} {n used : Nat}
    (h : decodeGroups (k + 1) b = some (n, used)) :
    ∃ w rest, b = w ++ rest ∧ w.length = used ∧ Groups w n ∧ w.length ≤ k + 1 ∧
      n < 2 ^ (7 * k + 1) := by
  induction k generalizing b n used with
  | zero =>
      cases b with
      | nil => cases h
      | cons x rest =>
          rw [decodeGroups] at h
          -- no group may follow, and this one holds a single bit
          by_cases hx : x < 0x80
          · rw [if_pos hx] at h
            split at h
            · cases h
            · next hbit =>
              cases h
              have h1 : ¬ 1 < x := fun hlt => hbit ⟨rfl, hlt⟩
              rw [UInt8.lt_iff_toNat_lt] at h1
              exact ⟨[x], rest, rfl, rfl, .last hx, Nat.le_refl 1, Nat.lt_succ_of_le (Nat.le_of_not_lt h1)⟩
          · rw [if_neg hx] at h
            cases h
  | succ k ih =>
      cases b with
      | nil => cases h
      | cons x rest =>
          rw [decodeGroups] at h
          by_cases hx : x < 0x80
          · rw [if_pos hx, if_neg (fun h0 => absurd h0.1 (Nat.succ_ne_zero k))] at h
            cases h
            rw [UInt8.lt_iff_toNat_lt] at hx
            refine ⟨[x], rest, rfl, rfl, .last hx, Nat.succ_pos _, Nat.lt_of_lt_of_le hx ?_⟩
            rw [two_pow_groups]
            exact Nat.le_mul_of_pos_right 128 (Nat.two_pow_pos _)
          · rw [if_neg hx] at h
            obtain ⟨⟨m, u⟩, hm, he⟩ := Option.map_eq_some_iff.1 h
            cases he
            -- the groups behind this one stand for `m`, of which this one holds the rest
            obtain ⟨w, post, rfl, rfl, hw, hlen, hlt⟩ := ih hm
            refine ⟨x :: w, post, rfl, rfl, .more hx hw, Nat.succ_le_succ hlen, ?_⟩
            rw [two_pow_groups]
            have hbits := Nat.mod_lt x.toNat (show 0 < 128 by decide)
            omega

/-- **Groups are read off the front** of whatever follows them, if there may be as many. -/
theorem Groups.decodeGroups_append {w : Bytes} {n : Nat} (h : Groups w n) {k : Nat}
    (hlen : w.length ≤ k + 1) (hlt : n < 2 ^ (7 * k + 1)) (rest : Bytes) :
    decodeGroups (k + 1) (w ++ rest) = some (n, w.length) := by
  -- each group that is passed leaves room for one less, down to the one that holds a bit
  induction h generalizing k with
  | @last x hx =>
      have hbit : ¬ (k = 0 ∧ 1 < x) := by
        rintro ⟨rfl, h1⟩
        rw [UInt8.lt_iff_toNat_lt] at h1
        exact absurd hlt (Nat.not_lt_of_le h1)
      rw [List.singleton_append, decodeGroups, if_pos hx, if_neg hbit]
      rfl
  | @more x w n hx hw ih =>
      cases k with
      | zero => exact absurd (Nat.le_of_succ_le_succ hlen) (Nat.not_le_of_gt hw.length_pos)
      | succ k =>
          rw [two_pow_groups] at hlt
          rw [List.cons_append, decodeGroups, if_neg hx, ih (Nat.le_of_succ_le_succ hlen) (by omega)]
          rfl

/-- **Reading a number takes a written form off the front.** -/
theorem decode_eq_some_iff {b : Bytes} {v : UInt64} {used : Nat} :
    decode b = some (v, used) ↔
      ∃ w rest, b = w ++ rest ∧ w.length = used ∧ Written w v.toNat := by
  constructor
  · intro h
    obtain ⟨⟨n, u⟩, hn, he⟩ := Option.map_eq_some_iff.1 h
    cases he
    obtain ⟨w, rest, rfl, hlen, hw, hle, hlt⟩ := groups_of_decodeGroups (k := 9) hn
    refine ⟨w, rest, rfl, hlen, ?_⟩
    rw [UInt64.toNat_ofNat_of_lt' hlt]
    exact ⟨hw, hle, hlt⟩
  · rintro ⟨w, rest, rfl, rfl, hw⟩
    rw [decode, show maxLength = 9 + 1 from rfl, hw.groups.decodeGroups_append hw.length_le hw.lt]
    simp only [Option.map_some, UInt64.ofNat_toNat]

end Varint

namespace Decoder

open Varint

theorem run_uvarint_eq_ok_iff {b rest : Bytes} {v : UInt64} :
    uvarint.run b = (.ok v, rest) ↔ ∃ w, b = w ++ rest ∧ Written w v.toNat := by
  rw [run_uvarint_eq_ok]
  constructor
  · rintro ⟨used, hv, rfl⟩
    obtain ⟨w, post, rfl, rfl, hw⟩ := decode_eq_some_iff.1 hv
    exact ⟨w, by rw [List.drop_left], hw⟩
  · rintro ⟨w, rfl, hw⟩
    exact ⟨w.length, decode_eq_some_iff.2 ⟨w, rest, rfl, rfl, hw⟩, List.drop_left.symm⟩

/-- A number that must fit 32 bits is read from any of its written forms. -/
theorem run_uvarint32_eq_ok_iff {b rest : Bytes} {v : UInt32} :
    uvarint32.run b = (.ok v, rest) ↔ ∃ w, b = w ++ rest ∧ Written w v.toNat := by
  rw [run_uvarint32_eq_ok]
  constructor
  -- the 64-bit number that was read is the 32-bit one
  · rintro ⟨u, hu, he⟩
    obtain ⟨w, rfl, hw⟩ := run_uvarint_eq_ok_iff.1 hu
    rw [he] at hw
    exact ⟨w, rfl, hw⟩
  · rintro ⟨w, rfl, hw⟩
    have hu : (UInt64.ofNat v.toNat).toNat = v.toNat := UInt64.toNat_ofNat_of_lt' hw.lt
    refine ⟨UInt64.ofNat v.toNat, run_uvarint_eq_ok_iff.2 ⟨w, rfl, ?_⟩, hu⟩
    rwa [hu]

end Decoder

end SeriesBlock
