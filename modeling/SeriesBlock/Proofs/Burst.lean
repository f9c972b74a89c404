import SeriesBlock.Proofs.Framing

/-!
# Bursts of errors

The checksum register takes bytes in one by one, each step a bijection of its 32 bits. Up to four
bytes in a row reach the register as one word: taking them in is the same as adding their
little-endian word and then shifting (`foldl_absorb`), and both are injective. Two byte strings that
agree outside a window of four bytes and differ inside it therefore have different checksums
(`crc32_ne_of_window`), whatever stands before and after the window.

For sections, a window of four bytes of the flag, the length and the payload is enough to tell
their checksums apart, and overwriting one to four bytes of the payload of a section that verifies
makes it fail (`burst_changes_checksum`).
-/

set_option autoImplicit false

namespace SeriesBlock

/-! ## The register -/

namespace Checksum

/-- Shifting one bit out is additive. -/
theorem shift_xor (r s : BitVec 32) : shift (r ^^^ s) = shift r ^^^ shift s := by
  unfold shift
  rw [BitVec.getLsbD_xor, BitVec.ushiftRight_xor_distrib]
  cases r.getLsbD 0 <;> cases s.getLsbD 0
  · rfl
  · exact BitVec.xor_assoc _ _ _
  · show (r >>> 1 ^^^ s >>> 1) ^^^ polynomial = (r >>> 1 ^^^ polynomial) ^^^ s >>> 1
    ac_rfl
  · show r >>> 1 ^^^ s >>> 1 = (r >>> 1 ^^^ polynomial) ^^^ (s >>> 1 ^^^ polynomial)
    rw [BitVec.xor_assoc, ← BitVec.xor_assoc polynomial, BitVec.xor_comm polynomial,
      BitVec.xor_assoc (s >>> 1), BitVec.xor_self, BitVec.xor_zero]

/-- The bit that was shifted out can be read off the top of the register. -/
theorem getLsbD_shift_top (r : BitVec 32) : (shift r).getLsbD 31 = r.getLsbD 0 := by
  have hp : polynomial.getLsbD 31 = true := by decide
  have ht : (r >>> 1).getLsbD 31 = false := by
    rw [BitVec.getLsbD_ushiftRight]
    exact BitVec.getLsbD_of_ge r (1 + 31) (by omega)
  unfold shift
  cases hb : r.getLsbD 0 with
  | false => rw [if_neg (by simp), ht]
  | true => rw [if_pos rfl, BitVec.getLsbD_xor, ht, hp, Bool.false_xor]

/-- A register that is shifted to nothing was empty. -/
theorem eq_zero_of_shift {r : BitVec 32} (h : shift r = 0) : r = 0 := by
  have h0 : r.getLsbD 0 = false := by
    rw [← getLsbD_shift_top, h]
    exact BitVec.getLsbD_zero
  have hs : r >>> 1 = 0 := by
    rw [shift, h0] at h
    simpa using h
  apply BitVec.eq_of_getLsbD_eq
  intro i hi
  rw [BitVec.ofNat_eq_ofNat, BitVec.getLsbD_zero]
  cases i with
  | zero => exact h0
  | succ i =>
      have hb := congrArg (fun x => BitVec.getLsbD x i) hs
      rw [BitVec.getLsbD_ushiftRight, BitVec.ofNat_eq_ofNat, BitVec.getLsbD_zero,
        Nat.add_comm] at hb
      exact hb

theorem shifts_xor (n : Nat) (r s : BitVec 32) : shifts n (r ^^^ s) = shifts n r ^^^ shifts n s := by
  induction n generalizing r s with
  | zero => rfl
  | succ n ih => rw [shifts, shifts, shifts, shift_xor, ih]

theorem shifts_add (m n : Nat) (r : BitVec 32) : shifts (m + n) r = shifts n (shifts m r) := by
  induction m generalizing r with
  | zero => rw [Nat.zero_add, shifts]
  | succ m ih => rw [Nat.succ_add, shifts, shifts, ih]

theorem eq_zero_of_shifts {n : Nat} {r : BitVec 32} (h : shifts n r = 0) : r = 0 := by
  induction n generalizing r with
  | zero => exact h
  | succ n ih => exact eq_zero_of_shift (ih h)

/-- **Shifting is injective.** -/
theorem shifts_injective {n : Nat} {r s : BitVec 32} (h : shifts n r = shifts n s) : r = s := by
  have hz : shifts n (r ^^^ s) = 0 := by
    rw [shifts_xor, h, BitVec.xor_self]
    rfl
  exact BitVec.xor_eq_zero_iff.1 (eq_zero_of_shifts hz)

/-- Taking in one byte is injective in the register. -/
theorem absorb_injective {b : UInt8} {r s : BitVec 32} (h : absorb r b = absorb s b) : r = s :=
  (BitVec.xor_left_inj _).1 (shifts_injective h)

theorem foldl_absorb_injective {m : Bytes} {r s : BitVec 32}
    (h : m.foldl absorb r = m.foldl absorb s) : r = s := by
  induction m generalizing r s with
  | nil => exact h
  | cons b m ih => exact absorb_injective (ih h)

/-! ## A few bytes as one word -/

/-- The word whose bytes, least significant first, are the given ones. -/
def littleEndian : Bytes → BitVec 32
  | [] => 0
  | b :: m => b.toBitVec.setWidth 32 ^^^ littleEndian m <<< 8

/-- A word has no bits above its bytes. -/
theorem getLsbD_littleEndian {m : Bytes} {i : Nat} (h : 8 * m.length ≤ i) :
    (littleEndian m).getLsbD i = false := by
  induction m generalizing i with
  | nil => exact BitVec.getLsbD_zero
  | cons b m ih =>
      rw [List.length_cons] at h
      have hb : (b.toBitVec.setWidth 32).getLsbD i = false := by
        rw [BitVec.getLsbD_setWidth, BitVec.getLsbD_of_ge b.toBitVec i (by omega), Bool.and_false]
      rw [littleEndian, BitVec.getLsbD_xor, hb, BitVec.getLsbD_shiftLeft, ih (by omega)]
      simp

/-- Bits that were moved up by `n` places come down again unchanged, if none went over the top. -/
theorem shifts_shiftLeft {n : Nat} {r : BitVec 32} (h : ∀ i, 32 - n ≤ i → r.getLsbD i = false) :
    shifts n (r <<< n) = r := by
  induction n with
  | zero => exact BitVec.shiftLeft_zero r
  | succ n ih =>
      have hlow : (r <<< (n + 1)).getLsbD 0 = false := by
        rw [BitVec.getLsbD_shiftLeft]
        simp
      -- the lowest bit is zero, so one step only shifts back
      have hstep : shift (r <<< (n + 1)) = r <<< n := by
        rw [shift, hlow, if_neg (by simp)]
        apply BitVec.eq_of_getLsbD_eq
        intro i hi
        rw [BitVec.getLsbD_ushiftRight, BitVec.getLsbD_shiftLeft, BitVec.getLsbD_shiftLeft]
        by_cases htop : i = 31
        · subst htop
          rw [h (31 - n) (by omega)]
          simp
        · have e : 1 + i - (n + 1) = i - n := by omega
          have e₁ : decide (1 + i < 32) = true := decide_eq_true (by omega)
          have e₂ : decide (i < 32) = true := decide_eq_true hi
          have e₃ : decide (1 + i < n + 1) = decide (i < n) := decide_eq_decide.2 (by omega)
          rw [e, e₁, e₂, e₃]
      rw [shifts, hstep]
      exact ih fun i hi => h i (by omega)

theorem shifts_littleEndian {m : Bytes} (h : m.length ≤ 3) :
    shifts 8 (littleEndian m <<< 8) = littleEndian m :=
  shifts_shiftLeft fun _ hi => getLsbD_littleEndian (by omega)

/-- **Up to four bytes at once.** Taking them in adds their word and shifts it out. -/
theorem foldl_absorb {m : Bytes} (h : m.length ≤ 4) (r : BitVec 32) :
    m.foldl absorb r = shifts (8 * m.length) (r ^^^ littleEndian m) := by
  induction m generalizing r with
  | nil => exact (BitVec.xor_zero).symm
  | cons b m ih =>
      rw [List.length_cons] at h
      -- the word of the bytes after `b` passes through the eight shifts of `b` on its way down
      have hm : absorb r b ^^^ littleEndian m =
          shifts 8 (r ^^^ (b.toBitVec.setWidth 32 ^^^ littleEndian m <<< 8)) := by
        rw [← BitVec.xor_assoc, shifts_xor 8 _ (littleEndian m <<< 8),
          shifts_littleEndian (by omega), absorb]
      rw [List.foldl_cons, ih (by omega), hm, ← shifts_add, littleEndian, List.length_cons,
        Nat.mul_add, Nat.add_comm]

/-- Words of as many bytes, at most four, are equal only if the bytes are. -/
theorem littleEndian_injective {m₁ m₂ : Bytes} (hl : m₁.length = m₂.length) (h4 : m₁.length ≤ 4)
    (h : littleEndian m₁ = littleEndian m₂) : m₁ = m₂ := by
  induction m₁ generalizing m₂ with
  | nil => exact (List.length_eq_zero_iff.1 hl.symm).symm
  | cons b₁ m₁ ih =>
      cases m₂ with
      | nil => simp at hl
      | cons b₂ m₂ =>
          simp only [List.length_cons, Nat.add_right_cancel_iff] at hl h4
          -- the first bytes are the lowest eight bits of the words
          have hb : b₁ = b₂ := by
            apply UInt8.toBitVec_inj.1
            apply BitVec.eq_of_getLsbD_eq
            intro i hi
            have hbit := congrArg (fun x => BitVec.getLsbD x i) h
            simp only [littleEndian, BitVec.getLsbD_xor, BitVec.getLsbD_shiftLeft,
              BitVec.getLsbD_setWidth, decide_eq_true hi] at hbit
            have h32 : i < 32 := by omega
            simpa [h32] using hbit
          subst hb
          have hw : littleEndian m₁ <<< 8 = littleEndian m₂ <<< 8 :=
            (BitVec.xor_right_inj _).1 h
          -- and the rest is what eight shifts leave
          have hm : littleEndian m₁ = littleEndian m₂ := by
            rw [← shifts_littleEndian (m := m₁) (by omega), hw, shifts_littleEndian (by omega)]
          rw [ih hl (by omega) hm]

/-- The checksum is the register up to complement. -/
theorem crc32_injective_register {a b : Bytes} (h : crc32 a = crc32 b) :
    a.foldl absorb (BitVec.allOnes 32) = b.foldl absorb (BitVec.allOnes 32) := by
  have hn : ~~~(a.foldl absorb (BitVec.allOnes 32)) = ~~~(b.foldl absorb (BitVec.allOnes 32)) :=
    congrArg UInt32.toBitVec h
  have hc := congrArg (fun x => ~~~x) hn
  simpa only [BitVec.not_not] using hc

/-- **Different bytes in a window of four change the checksum**, whatever surrounds the window. -/
theorem crc32_ne_of_window (before after : Bytes) {m₁ m₂ : Bytes} (hl : m₁.length = m₂.length)
    (h4 : m₁.length ≤ 4) (hne : m₁ ≠ m₂) :
    crc32 (before ++ m₁ ++ after) ≠ crc32 (before ++ m₂ ++ after) := by
  intro h
  have hr := crc32_injective_register h
  rw [List.foldl_append, List.foldl_append, List.foldl_append, List.foldl_append] at hr
  -- undo the bytes after the window, then those of the window
  have hw := foldl_absorb_injective hr
  rw [foldl_absorb h4, foldl_absorb (m := m₂) (by omega), hl] at hw
  exact hne (littleEndian_injective hl h4 ((BitVec.xor_right_inj _).1 (shifts_injective hw)))

end Checksum

/-! ## Windows -/

namespace Bytes

/-- Two byte strings agree at every position outside the `width` positions from `start` on. -/
def AgreeOutside (start width : Nat) (a b : Bytes) : Prop :=
  ∀ i, i < start ∨ start + width ≤ i → a[i]? = b[i]?

/-- The byte string with `patch` written over what stands from `start` on. -/
def overwrite (b : Bytes) (start : Nat) (patch : Bytes) : Bytes :=
  b.take start ++ patch ++ b.drop (start + patch.length)

theorem take_eq_of_agreeOutside {start width : Nat} {a b : Bytes}
    (h : AgreeOutside start width a b) : a.take start = b.take start := by
  apply List.ext_getElem?
  intro i
  rw [List.getElem?_take, List.getElem?_take]
  split
  · next hi => exact h i (Or.inl hi)
  · rfl

theorem drop_eq_of_agreeOutside {start width : Nat} {a b : Bytes}
    (h : AgreeOutside start width a b) : a.drop (start + width) = b.drop (start + width) := by
  apply List.ext_getElem?
  intro i
  rw [List.getElem?_drop, List.getElem?_drop]
  exact h _ (Or.inr (by omega))

/-- A byte string in three parts: before a window, in it, and after it. -/
theorem window_split (b : Bytes) (start width : Nat) :
    b = b.take start ++ (b.drop start).take width ++ b.drop (start + width) := by
  rw [← List.drop_drop, List.append_assoc, List.take_append_drop, List.take_append_drop]

@[simp]
theorem length_overwrite {b patch : Bytes} {start : Nat} (h : start + patch.length ≤ b.length) :
    (b.overwrite start patch).length = b.length := by
  simp only [overwrite, List.length_append, List.length_take, List.length_drop]
  omega

/-- Writing over a byte string what already stands there changes nothing. -/
theorem overwrite_self {b patch : Bytes} {start : Nat}
    (h : (b.drop start).take patch.length = patch) : b.overwrite start patch = b := by
  have hs := window_split b start patch.length
  rw [h] at hs
  exact hs.symm

/-- Overwriting a middle part leaves what surrounds it. -/
theorem overwrite_append {pre mid post patch : Bytes} {start : Nat}
    (h : start + patch.length ≤ mid.length) :
    overwrite (pre ++ mid ++ post) (pre.length + start) patch =
      pre ++ mid.overwrite start patch ++ post := by
  have ht : (pre ++ (mid ++ post)).take (pre.length + start) = pre ++ mid.take start := by
    rw [List.take_length_add_append, List.take_append_of_le_length (by omega)]
  have hd : (pre ++ (mid ++ post)).drop (pre.length + start + patch.length) =
      mid.drop (start + patch.length) ++ post := by
    rw [Nat.add_assoc, List.drop_length_add_append, List.drop_append_of_le_length h]
  simp only [overwrite, List.append_assoc] at ht hd ⊢
  rw [ht, hd]
  simp only [List.append_assoc]

end Bytes

namespace Checksum

/-- What the checksum of a section covers: its flag, the length of its payload, and the payload. -/
def covered (flag : UInt8) (payload : Bytes) : Bytes :=
  flag :: (Bytes.ofWord32 (UInt32.ofNat payload.length) ++ payload)

/-- Contents of one length that differ, but only inside some window of four bytes, have different
checksums. -/
theorem ofSection_ne_of_agreeOutside {flag₁ flag₂ : UInt8} {payload₁ payload₂ : Bytes} {start : Nat}
    (hl : payload₁.length = payload₂.length)
    (hne : covered flag₁ payload₁ ≠ covered flag₂ payload₂)
    (ha : Bytes.AgreeOutside start 4 (covered flag₁ payload₁) (covered flag₂ payload₂)) :
    ofSection flag₁ payload₁ ≠ ofSection flag₂ payload₂ := by
  have hlen : (covered flag₁ payload₁).length = (covered flag₂ payload₂).length := by
    simp [covered, hl]
  have h₁ := Bytes.window_split (covered flag₁ payload₁) start 4
  have h₂ := Bytes.window_split (covered flag₂ payload₂) start 4
  rw [← Bytes.take_eq_of_agreeOutside ha, ← Bytes.drop_eq_of_agreeOutside ha] at h₂
  show crc32 (covered flag₁ payload₁) ≠ crc32 (covered flag₂ payload₂)
  rw [h₁, h₂]
  apply crc32_ne_of_window
  · rw [List.length_take, List.length_take, List.length_drop, List.length_drop, hlen]
  · exact List.length_take_le _ _
  · intro hm
    rw [hm] at h₁
    exact hne (h₁.trans h₂.symm)

end Checksum

/-! ## Sections -/

namespace Section

open Checksum

/-- A section with part of its payload overwritten. -/
def patched (s : Section) (start : Nat) (patch : Bytes) : Section :=
  { s with payload := s.payload.overwrite start patch }

/-- The frame of a section between the bytes before and after its payload. -/
theorem frame_split {pre post : Bytes} (s : Section) :
    pre ++ s.stored ++ post =
      (pre ++ (s.flag :: Bytes.ofWord32 (UInt32.ofNat s.payload.length))) ++ s.payload ++
        (Bytes.ofWord32 s.checksum ++ post) := by
  simp [stored]

/-- Overwriting part of a payload in the buffer overwrites it in the section that is read, and
nothing else of that section. -/
theorem read_overwrite {b patch : Bytes} {offset : UInt32} {s : Section} {start : Nat}
    (h : read b offset = .ok s) (hp : start + patch.length ≤ s.payload.length) :
    read (b.overwrite (offset.toNat + 5 + start) patch) offset = .ok (s.patched start patch) := by
  obtain ⟨ho, hl, pre, post, rfl, hpre⟩ := read_eq_ok_iff.1 h
  have hlen := Bytes.length_overwrite hp
  refine read_eq_ok_iff.2 ⟨ho, ?_, pre, post, ?_, hpre⟩
  · show (s.payload.overwrite start patch).length < 2 ^ 32
    rw [hlen]
    exact hl
  · have hk : offset.toNat + 5 + start =
        (pre ++ (s.flag :: Bytes.ofWord32 (UInt32.ofNat s.payload.length))).length + start := by
      simp [hpre]
    rw [frame_split, hk, Bytes.overwrite_append hp]
    simp [stored, patched, hlen]

/-- A patch that changes the buffer changes the bytes it is written over. -/
theorem payload_ne_patch {b patch : Bytes} {offset : UInt32} {s : Section} {start : Nat}
    (h : read b offset = .ok s) (hp : start + patch.length ≤ s.payload.length)
    (hne : b.overwrite (offset.toNat + 5 + start) patch ≠ b) :
    (s.payload.drop start).take patch.length ≠ patch := by
  obtain ⟨-, -, pre, post, rfl, hpre⟩ := read_eq_ok_iff.1 h
  intro hsame
  apply hne
  have hk : offset.toNat + 5 + start =
      (pre ++ (s.flag :: Bytes.ofWord32 (UInt32.ofNat s.payload.length))).length + start := by
    simp [hpre]
  rw [frame_split, hk, Bytes.overwrite_append hp, Bytes.overwrite_self hsame]

/-- Overwriting at most four bytes of a payload, so that it changes, changes the checksum. -/
theorem checksum_patched_ne {s : Section} {start : Nat} {patch : Bytes} (h4 : patch.length ≤ 4)
    (hp : start + patch.length ≤ s.payload.length)
    (hne : (s.payload.drop start).take patch.length ≠ patch) :
    ofSection s.flag (s.payload.overwrite start patch) ≠ ofSection s.flag s.payload := by
  have hs := Bytes.window_split s.payload start patch.length
  have hlen := Bytes.length_overwrite hp
  have h := crc32_ne_of_window
    (s.flag :: (Bytes.ofWord32 (UInt32.ofNat s.payload.length) ++ s.payload.take start))
    (s.payload.drop (start + patch.length))
    (by rw [List.length_take, List.length_drop]; omega) h4 (Ne.symm hne)
  simp only [List.cons_append, List.append_assoc] at h hs
  rw [← hs] at h
  rw [ofSection, ofSection, hlen]
  simp only [Bytes.overwrite, List.append_assoc]
  exact h

/-- **Bursts of up to four bytes are detected.** Contents of sections that differ only inside a
window of four bytes of flag, length and payload have different checksums. A section that verifies
no longer does once at most four bytes of its payload have been overwritten with others; the failure
names its offset, its trailer and the checksum of the new contents. -/
theorem burst_changes_checksum :
    (∀ (flag₁ flag₂ : UInt8) (payload₁ payload₂ : Bytes) (start : Nat),
      payload₁.length = payload₂.length →
      covered flag₁ payload₁ ≠ covered flag₂ payload₂ →
      Bytes.AgreeOutside start 4 (covered flag₁ payload₁) (covered flag₂ payload₂) →
      ofSection flag₁ payload₁ ≠ ofSection flag₂ payload₂) ∧
    (∀ (b : Bytes) (offset : UInt32) (s : Section) (start : Nat) (patch : Bytes),
      read b offset = .ok s → s.verify = .ok () →
      patch.length ≤ 4 → start + patch.length ≤ s.payload.length →
      b.overwrite (offset.toNat + 5 + start) patch ≠ b →
      read (b.overwrite (offset.toNat + 5 + start) patch) offset = .ok (s.patched start patch) ∧
        (s.patched start patch).verify = .error (.checksumMismatch offset s.checksum
          (ofSection s.flag (s.payload.overwrite start patch)))) := by
  constructor
  · intro flag₁ flag₂ payload₁ payload₂ start hl hne ha
    exact ofSection_ne_of_agreeOutside hl hne ha
  · intro b offset s start patch hr hv h4 hp hne
    refine ⟨read_overwrite hr hp, ?_⟩
    obtain ⟨rfl, -, -⟩ := read_eq_ok_iff.1 hr
    have hc := checksum_patched_ne h4 hp (payload_ne_patch hr hp hne)
    rw [verify_eq_ok.1 hv] at hc
    exact verify_of_ne (s := s.patched start patch) hc

/-- One byte changed in a payload of three, and two in the middle of a section with other bytes
around it. -/
theorem burst_changes_checksum_abcdef :
    ofSection 1 [97, 98, 99] ≠ ofSection 1 [97, 0, 99] ∧
      (patched ⟨2, 1, [97, 98, 99, 100, 101, 102], 865452890⟩ 3 [0, 1]).verify =
        .error (.checksumMismatch 2 865452890 2111442437) := by
  refine ⟨burst_changes_checksum.1 1 1 [97, 98, 99] [97, 0, 99] 6 rfl (by decide) ?_, ?_⟩
  · intro i hi
    rcases hi with hi | hi
    · have h : ∀ j < 6, (covered 1 [97, 98, 99])[j]? = (covered 1 [97, 0, 99])[j]? := by decide
      exact h i hi
    · rw [List.getElem?_eq_none, List.getElem?_eq_none]
      · exact Nat.le_trans (by decide) hi
      · exact Nat.le_trans (by decide) hi
  · have hr : read [9, 9, 1, 0, 0, 0, 6, 97, 98, 99, 100, 101, 102, 51, 149, 195, 90, 9] 2 =
        .ok ⟨2, 1, [97, 98, 99, 100, 101, 102], 865452890⟩ :=
      read_eq_ok_iff.2 ⟨rfl, by decide, [9, 9], [9], by decide, rfl⟩
    have hv : ofSection 1 [97, 98, 99, 100, 101, 102] = 865452890 := by decide +kernel
    have hc : ofSection 1 [97, 98, 99, 0, 1, 102] = 2111442437 := by decide +kernel
    rw [← hc]
    exact (burst_changes_checksum.2 _ 2 _ 3 [0, 1] hr (verify_eq_ok.2 hv) (by decide) (by decide)
      (by decide)).2

end Section

end SeriesBlock
