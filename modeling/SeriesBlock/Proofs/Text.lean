import SeriesBlock.Text.Utf8

/-!
# Text read back

The reader of UTF-8 takes back every string that was written (`decode_encode`). It goes scalar by
scalar, so the work is one scalar (`readScalar_utf8EncodeChar`): its length fixes the first byte, the
first byte fixes the ranges of the others, and the bytes written lie in these because a scalar is no
surrogate and is not above 10FFFF. Conversely the scalar that is read is the one that is written there
(`eq_append_of_readScalar`), so text has one written form (`encode_of_decode`).
-/

set_option autoImplicit false

namespace SeriesBlock.Utf8

/-! ## First bytes -/

/-- The meaning of a first byte, by its number. -/
theorem lead?_eq (b : UInt8) : lead? b =
    if b.toNat ≤ 0x7f then some ⟨b.toNat, []⟩
    else if b.toNat < 0xc2 then none
    else if b.toNat ≤ 0xdf then some ⟨b.toNat % 32, [.tail]⟩
    else if b.toNat = 0xe0 then some ⟨0, [⟨0xa0, 0xbf⟩, .tail]⟩
    else if b.toNat = 0xed then some ⟨13, [⟨0x80, 0x9f⟩, .tail]⟩
    else if b.toNat ≤ 0xef then some ⟨b.toNat % 16, [.tail, .tail]⟩
    else if b.toNat = 0xf0 then some ⟨0, [⟨0x90, 0xbf⟩, .tail, .tail]⟩
    else if b.toNat ≤ 0xf3 then some ⟨b.toNat % 8, [.tail, .tail, .tail]⟩
    else if b.toNat = 0xf4 then some ⟨4, [⟨0x80, 0x8f⟩, .tail, .tail]⟩
    else none := by
  unfold lead?
  simp only [UInt8.le_iff_toNat_le, UInt8.lt_iff_toNat_lt, ← UInt8.toNat_inj]
  rfl

theorem toNat_ofNat_byte {a : Nat} (h : a < 256) : (UInt8.ofNat a).toNat = a :=
  UInt8.toNat_ofNat_of_lt' h

/-- A byte of a range adds its six bits. -/
theorem readFollow_cons {r : Range} {follow : List Range} {value seen x : Nat} {rest : Bytes}
    (hx : x < 256) (hlow : r.low.toNat ≤ x) (hhigh : x ≤ r.high.toNat) :
    readFollow value seen (r :: follow) (UInt8.ofNat x :: rest) =
      readFollow (64 * value + x % 64) (seen + 1) follow rest := by
  have hadmits : r.admits (UInt8.ofNat x) = true := by
    unfold Range.admits
    rw [Bool.and_eq_true, decide_eq_true_iff, decide_eq_true_iff, UInt8.le_iff_toNat_le,
      UInt8.le_iff_toNat_le, toNat_ofNat_byte hx]
    exact ⟨hlow, hhigh⟩
  rw [readFollow, if_pos hadmits, toNat_ofNat_byte hx]

/-- A continuation byte of a scalar as it is written. -/
theorem readFollow_tail {follow : List Range} {value seen x : Nat} {rest : Bytes} :
    readFollow value seen (.tail :: follow) (UInt8.ofNat (x % 64 + 0x80) :: rest) =
      readFollow (64 * value + x % 64) (seen + 1) follow rest := by
  rw [readFollow_cons (by omega) (by show 128 ≤ _; omega) (by show _ ≤ 191; omega)]
  congr 1
  omega

theorem readScalar_of_lead {b : UInt8} (lead : Lead) {rest rest' : Bytes} {v : Nat}
    (hb : lead? b = some lead) (hf : readFollow lead.bits 1 lead.follow rest = .ok (v, rest')) :
    readScalar b rest = .ok (Char.ofNat v, rest') := by
  simp only [readScalar, hb, hf]

/-! ## One scalar -/

theorem readScalar_one {v : Nat} (h : v ≤ 0x7f) (rest : Bytes) :
    readScalar (UInt8.ofNat v) rest = .ok (Char.ofNat v, rest) := by
  refine readScalar_of_lead ⟨v, []⟩ ?_ rfl
  rw [lead?_eq, toNat_ofNat_byte (by omega), if_pos h]

theorem readScalar_two {v : Nat} (hlow : 0x80 ≤ v) (hhigh : v ≤ 0x7ff) (rest : Bytes) :
    readScalar (UInt8.ofNat (v / 64 % 0x20 + 0xc0)) (UInt8.ofNat (v % 0x40 + 0x80) :: rest) =
      .ok (Char.ofNat v, rest) := by
  refine readScalar_of_lead ⟨v / 64, [.tail]⟩ ?_ ?_
  · rw [lead?_eq, toNat_ofNat_byte (by omega), if_neg (by omega), if_neg (by omega),
      if_pos (by omega)]
    congr 2
    omega
  · show readFollow (v / 64) 1 [.tail] _ = _
    rw [readFollow_tail, readFollow, Nat.div_add_mod]

theorem readScalar_three {v : Nat} (hlow : 0x800 ≤ v) (hhigh : v ≤ 0xffff)
    (hsurrogate : v < 0xd800 ∨ 0xdfff < v) (rest : Bytes) :
    readScalar (UInt8.ofNat (v / 4096 % 0x10 + 0xe0))
      (UInt8.ofNat (v / 64 % 0x40 + 0x80) :: UInt8.ofNat (v % 0x40 + 0x80) :: rest) =
      .ok (Char.ofNat v, rest) := by
  have hbits : 64 * (v / 4096) + v / 64 % 64 = v / 64 := by omega
  -- two of the first bytes narrow the range of the second one
  by_cases h0 : v / 4096 = 0
  · -- overlong forms are ruled out by the range of the second byte
    refine readScalar_of_lead ⟨0, [⟨0xa0, 0xbf⟩, .tail]⟩ ?_ ?_
    · rw [h0]
      rfl
    · show readFollow 0 1 [⟨0xa0, 0xbf⟩, .tail] _ = _
      rw [readFollow_cons (by omega) (by show 160 ≤ _; omega) (by show _ ≤ 191; omega),
        readFollow_tail, readFollow]
      congr 2
      omega
  · by_cases h13 : v / 4096 = 13
    · -- and so are surrogates
      refine readScalar_of_lead ⟨13, [⟨0x80, 0x9f⟩, .tail]⟩ ?_ ?_
      · rw [h13]
        rfl
      · show readFollow 13 1 [⟨0x80, 0x9f⟩, .tail] _ = _
        rw [readFollow_cons (by omega) (by show 128 ≤ _; omega) (by show _ ≤ 159; omega),
          readFollow_tail, readFollow]
        congr 2
        omega
    · refine readScalar_of_lead ⟨v / 4096, [.tail, .tail]⟩ ?_ ?_
      · rw [lead?_eq, toNat_ofNat_byte (by omega), if_neg (by omega), if_neg (by omega),
          if_neg (by omega), if_neg (by omega), if_neg (by omega), if_pos (by omega)]
        congr 2
        omega
      · show readFollow (v / 4096) 1 [.tail, .tail] _ = _
        rw [readFollow_tail, readFollow_tail, readFollow, hbits, Nat.div_add_mod]

theorem readScalar_four {v : Nat} (hlow : 0x10000 ≤ v) (hhigh : v ≤ 0x10ffff) (rest : Bytes) :
    readScalar (UInt8.ofNat (v / 262144 % 0x08 + 0xf0))
      (UInt8.ofNat (v / 4096 % 0x40 + 0x80) :: UInt8.ofNat (v / 64 % 0x40 + 0x80) ::
        UInt8.ofNat (v % 0x40 + 0x80) :: rest) = .ok (Char.ofNat v, rest) := by
  have hbits : 64 * (v / 262144) + v / 4096 % 64 = v / 4096 := by omega
  have hbits' : 64 * (v / 4096) + v / 64 % 64 = v / 64 := by omega
  by_cases h0 : v / 262144 = 0
  · refine readScalar_of_lead ⟨0, [⟨0x90, 0xbf⟩, .tail, .tail]⟩ ?_ ?_
    · rw [h0]
      rfl
    · show readFollow 0 1 [⟨0x90, 0xbf⟩, .tail, .tail] _ = _
      rw [readFollow_cons (by omega) (by show 144 ≤ _; omega) (by show _ ≤ 191; omega),
        readFollow_tail, readFollow_tail, readFollow]
      congr 2
      omega
  · by_cases h4 : v / 262144 = 4
    · -- the range of the second byte keeps out what is above 10FFFF
      refine readScalar_of_lead ⟨4, [⟨0x80, 0x8f⟩, .tail, .tail]⟩ ?_ ?_
      · rw [h4]
        rfl
      · show readFollow 4 1 [⟨0x80, 0x8f⟩, .tail, .tail] _ = _
        rw [readFollow_cons (by omega) (by show 128 ≤ _; omega) (by show _ ≤ 143; omega),
          readFollow_tail, readFollow_tail, readFollow]
        congr 2
        omega
    · refine readScalar_of_lead ⟨v / 262144, [.tail, .tail, .tail]⟩ ?_ ?_
      · rw [lead?_eq, toNat_ofNat_byte (by omega), if_neg (by omega), if_neg (by omega),
          if_neg (by omega), if_neg (by omega), if_neg (by omega), if_neg (by omega),
          if_neg (by omega), if_pos (by omega)]
        congr 2
        omega
      · show readFollow (v / 262144) 1 [.tail, .tail, .tail] _ = _
        rw [readFollow_tail, readFollow_tail, readFollow_tail, readFollow, hbits, hbits',
          Nat.div_add_mod]

/-- **A written scalar is read back** from in front of any bytes. -/
theorem readScalar_utf8EncodeChar (c : Char) (rest : Bytes) :
    ∃ b follow, String.utf8EncodeChar c = b :: follow ∧
      readScalar b (follow ++ rest) = .ok (c, rest) := by
  have hc : Char.ofNat c.val.toNat = c := Char.ofNat_toNat c
  have hvalid : c.val.toNat < 0xd800 ∨ 0xdfff < c.val.toNat ∧ c.val.toNat < 0x110000 := c.valid
  unfold String.utf8EncodeChar
  -- by the length of the written form
  by_cases h1 : c.val.toNat ≤ 0x7f
  · refine ⟨_, _, if_pos h1, ?_⟩
    rw [List.nil_append, readScalar_one h1, hc]
  · by_cases h2 : c.val.toNat ≤ 0x7ff
    · refine ⟨_, _, (if_neg h1).trans (if_pos h2), ?_⟩
      rw [List.singleton_append, readScalar_two (by omega) h2, hc]
    · by_cases h3 : c.val.toNat ≤ 0xffff
      · refine ⟨_, _, (if_neg h1).trans ((if_neg h2).trans (if_pos h3)), ?_⟩
        show readScalar _ (_ :: _ :: rest) = _
        rw [readScalar_three (by omega) h3 (by omega), hc]
      · refine ⟨_, _, (if_neg h1).trans ((if_neg h2).trans (if_neg h3)), ?_⟩
        show readScalar _ (_ :: _ :: _ :: rest) = _
        rw [readScalar_four (by omega) (by omega), hc]

/-! ## Strings -/

theorem scalars_cons {position : Nat} {b : UInt8} {rest rest' : Bytes} {c : Char} {cs : List Char}
    (h : readScalar b rest = .ok (c, rest'))
    (hmore : scalars (position + scalarLength b) rest' = .ok cs) :
    scalars position (b :: rest) = .ok (c :: cs) := by
  rw [scalars]
  split
  · next flaw he =>
    rw [h] at he
    cases he
  · next c' r' he =>
    rw [h] at he
    cases he
    rw [hmore]

theorem scalars_flatMap (position : Nat) (cs : List Char) :
    scalars position (cs.flatMap String.utf8EncodeChar) = .ok cs := by
  induction cs generalizing position with
  | nil =>
      rw [List.flatMap_nil, scalars]
  | cons c cs ih =>
      obtain ⟨b, follow, hc, hread⟩ :=
        readScalar_utf8EncodeChar c (cs.flatMap String.utf8EncodeChar)
      rw [List.flatMap_cons, hc, List.cons_append]
      exact scalars_cons hread (ih _)

/-- **A written string is read back.** -/
theorem decode_encode (s : String) : decode (encode s) = .ok s := by
  unfold decode encode
  rw [scalars_flatMap]
  exact congrArg Except.ok String.ofList_toList

theorem encode_injective {s t : String} (h : encode s = encode t) : s = t := by
  have hs := decode_encode s
  rw [h, decode_encode] at hs
  exact (Except.ok.inj hs).symm

/-- No byte of a scalar is `ff`. -/
theorem ne_ff_of_mem_utf8EncodeChar {c : Char} {b : UInt8} (h : b ∈ String.utf8EncodeChar c) :
    b ≠ 0xff := by
  have hvalid : c.val.toNat < 0xd800 ∨ 0xdfff < c.val.toNat ∧ c.val.toNat < 0x110000 := c.valid
  -- every byte is written with a number below 255
  have hbyte : ∀ a, a < 0xff → UInt8.ofNat a ≠ 0xff := by
    intro a ha he
    have hn : (UInt8.ofNat a).toNat = 255 := congrArg UInt8.toNat he
    rw [toNat_ofNat_byte (by omega)] at hn
    omega
  unfold String.utf8EncodeChar at h
  dsimp only at h
  split at h
  · cases List.mem_singleton.1 h
    exact hbyte _ (by omega)
  · split at h
    · simp only [List.mem_cons, List.not_mem_nil, or_false] at h
      rcases h with rfl | rfl
      · exact hbyte _ (by omega)
      · exact hbyte _ (by omega)
    · split at h
      · simp only [List.mem_cons, List.not_mem_nil, or_false] at h
        rcases h with rfl | rfl | rfl
        · exact hbyte _ (by omega)
        · exact hbyte _ (by omega)
        · exact hbyte _ (by omega)
      · simp only [List.mem_cons, List.not_mem_nil, or_false] at h
        rcases h with rfl | rfl | rfl | rfl
        · exact hbyte _ (by omega)
        · exact hbyte _ (by omega)
        · exact hbyte _ (by omega)
        · exact hbyte _ (by omega)

/-- The byte `ff` occurs in no text. -/
theorem ff_not_mem_encode (s : String) : (0xff : UInt8) ∉ encode s := by
  intro h
  obtain ⟨c, -, hc⟩ := List.mem_flatMap.1 h
  exact ne_ff_of_mem_utf8EncodeChar hc rfl

/-! ## Text that was read -/

/-- What a first byte may be: the whole scalar, or the first of two, three or four bytes. The range of the
second byte keeps out overlong forms, surrogates and values above 10FFFF. -/
inductive LeadForm (b : UInt8) : Lead → Prop where
  | one : b.toNat ≤ 0x7f → LeadForm b ⟨b.toNat, []⟩
  | two : 0xc2 ≤ b.toNat → b.toNat ≤ 0xdf → LeadForm b ⟨b.toNat % 32, [.tail]⟩
  | three {r : Range} : 0xe0 ≤ b.toNat → b.toNat ≤ 0xef → 0x80 ≤ r.low.toNat → r.high.toNat ≤ 0xbf →
      (b.toNat = 0xe0 → 0xa0 ≤ r.low.toNat) → (b.toNat = 0xed → r.high.toNat ≤ 0x9f) →
      LeadForm b ⟨b.toNat % 16, [r, .tail]⟩
  | four {r : Range} : 0xf0 ≤ b.toNat → b.toNat ≤ 0xf4 → 0x80 ≤ r.low.toNat → r.high.toNat ≤ 0xbf →
      (b.toNat = 0xf0 → 0x90 ≤ r.low.toNat) → (b.toNat = 0xf4 → r.high.toNat ≤ 0x8f) →
      LeadForm b ⟨b.toNat % 8, [r, .tail, .tail]⟩

theorem leadForm_of_lead? {b : UInt8} {lead : Lead} (h : lead? b = some lead) : LeadForm b lead := by
  rw [lead?_eq] at h
  by_cases h7f : b.toNat ≤ 0x7f
  · rw [if_pos h7f] at h
    cases h
    exact .one h7f
  rw [if_neg h7f] at h
  by_cases hc2 : b.toNat < 0xc2
  · rw [if_pos hc2] at h
    cases h
  rw [if_neg hc2] at h
  by_cases hdf : b.toNat ≤ 0xdf
  · rw [if_pos hdf] at h
    cases h
    exact .two (by omega) hdf
  rw [if_neg hdf] at h
  -- of three bytes, after `e0`, after `ed` and after the others
  by_cases he0 : b.toNat = 0xe0
  · rw [if_pos he0] at h
    cases h
    have hform : LeadForm b ⟨b.toNat % 16, [⟨0xa0, 0xbf⟩, .tail]⟩ :=
      .three (by omega) (by omega) (by decide) (by decide) (fun _ => by decide) (fun _ => by omega)
    rwa [he0] at hform
  rw [if_neg he0] at h
  by_cases hed : b.toNat = 0xed
  · rw [if_pos hed] at h
    cases h
    have hform : LeadForm b ⟨b.toNat % 16, [⟨0x80, 0x9f⟩, .tail]⟩ :=
      .three (by omega) (by omega) (by decide) (by decide) (fun _ => by omega) (fun _ => by decide)
    rwa [hed] at hform
  rw [if_neg hed] at h
  by_cases hef : b.toNat ≤ 0xef
  · rw [if_pos hef] at h
    cases h
    exact .three (by omega) (by omega) (by decide) (by decide) (fun _ => by omega) (fun _ => by omega)
  rw [if_neg hef] at h
  -- of four bytes, after `f0`, after `f4` and after the others
  by_cases hf0 : b.toNat = 0xf0
  · rw [if_pos hf0] at h
    cases h
    have hform : LeadForm b ⟨b.toNat % 8, [⟨0x90, 0xbf⟩, .tail, .tail]⟩ :=
      .four (by omega) (by omega) (by decide) (by decide) (fun _ => by decide) (fun _ => by omega)
    rwa [hf0] at hform
  rw [if_neg hf0] at h
  by_cases hf3 : b.toNat ≤ 0xf3
  · rw [if_pos hf3] at h
    cases h
    exact .four (by omega) (by omega) (by decide) (by decide) (fun _ => by omega) (fun _ => by omega)
  rw [if_neg hf3] at h
  by_cases hf4 : b.toNat = 0xf4
  · rw [if_pos hf4] at h
    cases h
    have hform : LeadForm b ⟨b.toNat % 8, [⟨0x80, 0x8f⟩, .tail, .tail]⟩ :=
      .four (by omega) (by omega) (by decide) (by decide) (fun _ => by omega) (fun _ => by decide)
    rwa [hf4] at hform
  · rw [if_neg hf4] at h
    cases h

theorem toNat_ofNat_scalar {v : Nat} (h : v.isValidChar) : (Char.ofNat v).val.toNat = v := by
  rw [Char.ofNat, dif_pos h]
  rfl

/-- A byte was read as one of a range. -/
theorem readFollow_cons_eq_ok {r : Range} {follow : List Range} {value seen v : Nat} {rest rest' : Bytes}
    (h : readFollow value seen (r :: follow) rest = .ok (v, rest')) :
    ∃ x more, rest = x :: more ∧ r.low.toNat ≤ x.toNat ∧ x.toNat ≤ r.high.toNat ∧
      readFollow (64 * value + x.toNat % 64) (seen + 1) follow more = .ok (v, rest') := by
  cases rest with
  | nil => cases h
  | cons x more =>
      rw [readFollow] at h
      split at h
      · next hadmits =>
        rw [Range.admits, Bool.and_eq_true, decide_eq_true_iff, decide_eq_true_iff,
          UInt8.le_iff_toNat_le, UInt8.le_iff_toNat_le] at hadmits
        exact ⟨x, more, rfl, hadmits.1, hadmits.2, h⟩
      · cases h

/-! The written form of a scalar, by its length. -/

theorem utf8EncodeChar_one {v : Nat} (h : v ≤ 0x7f) :
    String.utf8EncodeChar (Char.ofNat v) = [UInt8.ofNat v] := by
  rw [String.utf8EncodeChar, toNat_ofNat_scalar (Or.inl (by omega))]
  exact if_pos h

theorem utf8EncodeChar_two {v : Nat} (hlow : 0x80 ≤ v) (hhigh : v ≤ 0x7ff) :
    String.utf8EncodeChar (Char.ofNat v) =
      [UInt8.ofNat (v / 64 % 0x20 + 0xc0), UInt8.ofNat (v % 0x40 + 0x80)] := by
  rw [String.utf8EncodeChar, toNat_ofNat_scalar (Or.inl (by omega))]
  exact (if_neg (by omega)).trans (if_pos hhigh)

theorem utf8EncodeChar_three {v : Nat} (hlow : 0x800 ≤ v) (hhigh : v ≤ 0xffff)
    (hsurrogate : v < 0xd800 ∨ 0xdfff < v) :
    String.utf8EncodeChar (Char.ofNat v) =
      [UInt8.ofNat (v / 4096 % 0x10 + 0xe0), UInt8.ofNat (v / 64 % 0x40 + 0x80),
        UInt8.ofNat (v % 0x40 + 0x80)] := by
  have hv : v.isValidChar := hsurrogate.imp_right fun h => ⟨h, by omega⟩
  rw [String.utf8EncodeChar, toNat_ofNat_scalar hv]
  exact (if_neg (by omega)).trans ((if_neg (by omega)).trans (if_pos hhigh))

theorem utf8EncodeChar_four {v : Nat} (hlow : 0x10000 ≤ v) (hhigh : v ≤ 0x10ffff) :
    String.utf8EncodeChar (Char.ofNat v) =
      [UInt8.ofNat (v / 262144 % 0x08 + 0xf0), UInt8.ofNat (v / 4096 % 0x40 + 0x80),
        UInt8.ofNat (v / 64 % 0x40 + 0x80), UInt8.ofNat (v % 0x40 + 0x80)] := by
  rw [String.utf8EncodeChar, toNat_ofNat_scalar (Or.inr ⟨by omega, by omega⟩)]
  exact (if_neg (by omega)).trans ((if_neg (by omega)).trans (if_neg (by omega)))

theorem ofNat_eq_of_toNat {x : UInt8} {n : Nat} (h : n = x.toNat) : UInt8.ofNat n = x := by
  rw [h, UInt8.ofNat_toNat]

/-- **A scalar that was read is the one that is written** at the front of the bytes. -/
theorem eq_append_of_readScalar {b : UInt8} {rest rest' : Bytes} {c : Char}
    (h : readScalar b rest = .ok (c, rest')) : b :: rest = String.utf8EncodeChar c ++ rest' := by
  have htail : Range.tail.low.toNat = 0x80 ∧ Range.tail.high.toNat = 0xbf := ⟨rfl, rfl⟩
  unfold readScalar at h
  split at h
  · cases h
  · next lead hlead =>
    split at h
    · next v rest'' hfollow =>
      cases h
      -- by the number of bytes; each byte that follows adds six bits
      cases leadForm_of_lead? hlead with
      | one hb =>
          cases hfollow
          rw [utf8EncodeChar_one hb, UInt8.ofNat_toNat, List.singleton_append]
      | two hlow hhigh =>
          dsimp only at hfollow
          obtain ⟨x, more, rfl, hxl, hxh, hfollow⟩ := readFollow_cons_eq_ok hfollow
          cases hfollow
          rw [utf8EncodeChar_two (by omega) (by omega), ofNat_eq_of_toNat (x := b) (by omega),
            ofNat_eq_of_toNat (x := x) (by omega)]
          rfl
      | three hlow hhigh hrl hrh hoverlong hsurrogate =>
          dsimp only at hfollow
          obtain ⟨x, more, rfl, hxl, hxh, hfollow⟩ := readFollow_cons_eq_ok hfollow
          obtain ⟨y, more, rfl, hyl, hyh, hfollow⟩ := readFollow_cons_eq_ok hfollow
          cases hfollow
          rw [utf8EncodeChar_three (by omega) (by omega) (by omega),
            ofNat_eq_of_toNat (x := b) (by omega), ofNat_eq_of_toNat (x := x) (by omega),
            ofNat_eq_of_toNat (x := y) (by omega)]
          rfl
      | four hlow hhigh hrl hrh hoverlong htop =>
          dsimp only at hfollow
          obtain ⟨x, more, rfl, hxl, hxh, hfollow⟩ := readFollow_cons_eq_ok hfollow
          obtain ⟨y, more, rfl, hyl, hyh, hfollow⟩ := readFollow_cons_eq_ok hfollow
          obtain ⟨z, more, rfl, hzl, hzh, hfollow⟩ := readFollow_cons_eq_ok hfollow
          cases hfollow
          rw [utf8EncodeChar_four (by omega) (by omega), ofNat_eq_of_toNat (x := b) (by omega),
            ofNat_eq_of_toNat (x := x) (by omega), ofNat_eq_of_toNat (x := y) (by omega),
            ofNat_eq_of_toNat (x := z) (by omega)]
          rfl
    · cases h

theorem eq_flatMap_of_scalars {position : Nat} {b : Bytes} {cs : List Char}
    (h : scalars position b = .ok cs) : b = cs.flatMap String.utf8EncodeChar := by
  induction cs generalizing position b with
  | nil =>
      cases b with
      | nil => rfl
      | cons x rest =>
          rw [scalars] at h
          split at h
          · cases h
          · split at h <;> cases h
  | cons c cs ih =>
      cases b with
      | nil =>
          rw [scalars] at h
          cases h
      | cons x rest =>
          rw [scalars] at h
          split at h
          · cases h
          · next c' rest' hread =>
            split at h
            · cases h
            · next cs' hmore =>
              cases h
              rw [List.flatMap_cons, ← ih hmore]
              exact eq_append_of_readScalar hread

/-- **Text that was read is written back.** -/
theorem encode_of_decode {b : Bytes} {s : String} (h : decode b = .ok s) : encode s = b := by
  unfold decode at h
  cases hs : scalars 0 b with
  | error fault =>
      rw [hs] at h
      cases h
  | ok cs =>
      rw [hs] at h
      cases h
      rw [encode, String.toList_ofList]
      exact (eq_flatMap_of_scalars hs).symm

end SeriesBlock.Utf8
