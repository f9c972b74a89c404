import SeriesBlock.Proofs.Failures
import SeriesBlock.Section

/-!
# Frames

Reading at a position takes from there on what a step takes from the front (`Decoder.run_take_drop`), so what
is read is a part of the buffer (`Bytes.part`).

`Section.stored` lays a section out as its frame. `Section.read` succeeds at an offset exactly when
the buffer holds there the frame of a section with a payload of less than `2 ^ 32` bytes
(`read_eq_ok_iff`), and gives that section. `verify` accepts a section exactly when its frame is the
one that `write` lays out (`verify_eq_ok`).
-/

set_option autoImplicit false

namespace SeriesBlock

/-- The bytes from a position on, `length` of them if there are as many. -/
def Bytes.part (b : Bytes) (start length : Nat) : Bytes :=
  (b.drop start).take length

/-- What stands between other bytes is the part at its place. -/
theorem Bytes.part_of_append (pre post : Bytes) {b w : Bytes} {start length : Nat}
    (hb : b = pre ++ (w ++ post)) (hstart : pre.length = start) (hlength : w.length = length) :
    b.part start length = w := by
  subst hb hstart hlength
  simp [part]

/-! ## Steps at a position -/

section Positions

open Bytes

variable {α : Type} {b w rest : Bytes} {n k : Nat}

/-- At a position stands a length that takes `used` bytes, and `gap` bytes behind it as many bytes as it says. -/
structure Bytes.CountedAt (b : Bytes) (n gap : Nat) (length : UInt64) (used : Nat) : Prop where
  inside : n ≤ b.length
  counted : Varint.decode (b.drop n) = some (length, used)
  fits : n + used + gap + length.toNat ≤ b.length

/-- A decoder succeeds at a position exactly if the position is one of the buffer and it does from there on. -/
theorem Decoder.tailFrom_eval_eq_ok {d : Decoder α} {a : α} :
    (b.tailFrom n >>= d.eval) = .ok a ↔ n ≤ b.length ∧ ∃ rest, d.run (b.drop n) = (.ok a, rest) := by
  rw [tailFrom]
  by_cases hn : n ≤ b.length
  · rw [if_pos hn, and_iff_right hn]
    exact eval_eq_ok
  · rw [if_neg hn]
    refine iff_of_false (fun h => ?_) fun h => hn h.1
    cases h

theorem Decoder.run_uvarint_drop {v : UInt64} :
    uvarint.run (b.drop n) = (.ok v, rest) ↔
      ∃ used, Varint.decode (b.drop n) = some (v, used) ∧ rest = b.drop (n + used) := by
  simp only [run_uvarint_eq_ok, List.drop_drop]

/-- A length ends inside the buffer. -/
theorem Bytes.le_of_decode_drop {v : UInt64} {used : Nat} (hn : n ≤ b.length)
    (h : Varint.decode (b.drop n) = some (v, used)) : n + used ≤ b.length := by
  have hused := (Varint.decode_used h).2.1
  rw [List.length_drop] at hused
  omega

theorem Decoder.run_byte_drop {x : UInt8} :
    byte.run (b.drop n) = (.ok x, rest) ↔ b[n]? = some x ∧ rest = b.drop (n + 1) := by
  rw [run_byte_eq_ok]
  constructor
  · intro h
    have hx : b[n]? = some x := by rw [← List.head?_drop, h, List.head?_cons]
    refine ⟨hx, ?_⟩
    rw [← List.drop_drop, h, List.drop_one, List.tail_cons]
  · rintro ⟨hx, rfl⟩
    obtain ⟨hn, rfl⟩ := List.getElem?_eq_some_iff.1 hx
    exact List.drop_eq_getElem_cons hn

theorem Decoder.run_take_drop (hn : n ≤ b.length) :
    (take k).run (b.drop n) = (.ok w, rest) ↔
      n + k ≤ b.length ∧ w = b.part n k ∧ rest = b.drop (n + k) := by
  rw [run_take, List.length_drop, List.drop_drop]
  by_cases hk : k ≤ b.length - n
  · rw [if_pos hk, and_iff_right (by omega : n + k ≤ b.length), Prod.mk.injEq, Except.ok.injEq, eq_comm,
      eq_comm (a := rest)]
    rfl
  · rw [if_neg hk]
    exact iff_of_false nofun fun h => hk (by omega)

end Positions

namespace Section

open Bytes Decoder

/-- A section as it is stored, with the trailer it has. -/
def stored (s : Section) : Bytes :=
  s.flag :: (ofWord32 (UInt32.ofNat s.payload.length) ++ s.payload ++ ofWord32 s.checksum)

@[simp]
theorem length_stored (s : Section) : s.stored.length = s.payload.length + 9 := by
  simp [stored]
  omega

/-- Taking a frame apart succeeds exactly on the stored form of a section. -/
theorem run_frame_eq_ok {offset : UInt32} {b rest : Bytes} {s : Section} :
    (frame offset).run b = (.ok s, rest) ↔
      s.offset = offset ∧ s.payload.length < 2 ^ 32 ∧ b = s.stored ++ rest := by
  constructor
  · intro h
    obtain ⟨flag, b₁, h₁, h⟩ := run_bind_eq_ok.1 h
    obtain ⟨length, b₂, h₂, h⟩ := run_bind_eq_ok.1 h
    obtain ⟨payload, b₃, h₃, h⟩ := run_bind_eq_ok.1 h
    obtain ⟨checksum, b₄, h₄, h⟩ := run_bind_eq_ok.1 h
    cases h
    obtain rfl := run_byte_eq_ok.1 h₁
    obtain rfl := run_word32_eq_ok.1 h₂
    obtain ⟨rfl, hl⟩ := run_take_eq_ok.1 h₃
    obtain rfl := run_word32_eq_ok.1 h₄
    refine ⟨rfl, ?_, ?_⟩
    · show payload.length < 2 ^ 32
      rw [hl]
      exact length.toNat_lt
    · simp [stored, hl]
  · rintro ⟨rfl, hl, rfl⟩
    obtain ⟨offset, flag, payload, checksum⟩ := s
    -- the declared length is that of the payload, because it fits a word
    have hn : (UInt32.ofNat payload.length).toNat = payload.length :=
      UInt32.toNat_ofNat_of_lt' hl
    refine run_bind_eq_ok.2 ⟨flag, _, run_byte_eq_ok.2 rfl, ?_⟩
    refine run_bind_eq_ok.2 ⟨UInt32.ofNat payload.length, payload ++ (ofWord32 checksum ++ rest),
      run_word32_eq_ok.2 (by simp), ?_⟩
    refine run_bind_eq_ok.2 ⟨payload, ofWord32 checksum ++ rest,
      run_take_eq_ok.2 ⟨rfl, hn.symm⟩, ?_⟩
    exact run_bind_eq_ok.2 ⟨checksum, rest, run_word32_eq_ok.2 rfl, rfl⟩

/-! ## Where a frame ends -/

/-- Fewer than five bytes hold no frame. -/
theorem eval_frame_of_short {offset : UInt32} {b : Bytes} (h : b.length < 5) :
    (frame offset).eval b = .error .invalidSize := by
  cases b with
  | nil => rfl
  | cons flag t =>
      rw [List.length_cons] at h
      have hw := run_word32_of_short (b := t) (by omega)
      rw [eval, frame, run_bind_ok (run_byte_eq_ok.2 rfl), run_bind_error hw]

/-- Five bytes hold a flag and a length. -/
theorem exists_head {b : Bytes} (h : 5 ≤ b.length) :
    ∃ flag length rest, b = flag :: (ofWord32 length ++ rest) := by
  cases b with
  | nil => simp at h
  | cons flag t =>
      rw [List.length_cons] at h
      obtain ⟨length, rest, rfl⟩ := exists_word32 (b := t) (by omega)
      exact ⟨flag, length, rest, rfl⟩

/-- After its flag and its length, a frame takes the declared bytes and four more. -/
theorem eval_frame_head (offset length : UInt32) (flag : UInt8) (rest : Bytes) :
    (frame offset).eval (flag :: (ofWord32 length ++ rest)) =
      if length.toNat + 4 ≤ rest.length then
        .ok ⟨offset, flag, rest.take length.toNat,
          UInt32.ofNat (toNat ((rest.drop length.toNat).take 4))⟩
      else .error .invalidSize := by
  have hhead : (frame offset).run (flag :: (ofWord32 length ++ rest)) =
      (do
        let payload ← take length.toNat
        let checksum ← word32
        pure (⟨offset, flag, payload, checksum⟩ : Section)).run rest := by
    rw [frame, run_bind_ok (run_byte_eq_ok.2 rfl), run_bind_ok (run_word32_eq_ok.2 rfl)]
  -- too short for the payload, too short for the trailer, or long enough
  by_cases hlen : length.toNat ≤ rest.length
  · have htake : (take length.toNat).run rest =
        (.ok (rest.take length.toNat), rest.drop length.toNat) := if_pos hlen
    rw [run_bind_ok htake] at hhead
    by_cases h4 : length.toNat + 4 ≤ rest.length
    · obtain ⟨checksum, post, hpost⟩ := exists_word32 (b := rest.drop length.toNat)
        (by rw [List.length_drop]; omega)
      have h4' : (ofWord32 checksum ++ post).take 4 = ofWord32 checksum := by
        rw [List.take_left' (length_ofWord32 checksum)]
      rw [if_pos h4, hpost, h4', ofNat_toNat_ofWord32]
      rw [hpost, run_bind_ok (run_word32_eq_ok.2 rfl)] at hhead
      exact eval_of_run hhead
    · have hw := run_word32_of_short (b := rest.drop length.toNat)
        (by rw [List.length_drop]; omega)
      rw [run_bind_error hw] at hhead
      rw [if_neg h4]
      exact eval_of_run hhead
  · rw [run_bind_error (run_take_of_short (by omega))] at hhead
    rw [if_neg (by omega)]
    exact eval_of_run hhead

/-- **Reading a section** succeeds exactly where the buffer holds the stored form of one. -/
theorem read_eq_ok_iff {b : Bytes} {offset : UInt32} {s : Section} :
    read b offset = .ok s ↔ s.offset = offset ∧ s.payload.length < 2 ^ 32 ∧
      ∃ pre post, b = pre ++ s.stored ++ post ∧ pre.length = offset.toNat := by
  constructor
  · intro h
    cases ht : b.tailFrom offset.toNat with
    | error e =>
        rw [read, ht] at h
        cases h
    | ok tail =>
        rw [read, ht] at h
        obtain ⟨post, hr⟩ := eval_eq_ok.1 h
        obtain ⟨ho, hl, rfl⟩ := run_frame_eq_ok.1 hr
        obtain ⟨pre, rfl, hp⟩ := tailFrom_eq_ok.1 ht
        exact ⟨ho, hl, pre, post, by rw [List.append_assoc], hp⟩
  · rintro ⟨ho, hl, pre, post, rfl, hp⟩
    rw [read, List.append_assoc, tailFrom_append hp]
    exact eval_of_run (run_frame_eq_ok.2 ⟨ho, hl, rfl⟩)

theorem failsOnly_frame (offset : UInt32) : FailsOnly (· = .invalidSize) (frame offset) := by
  refine failsOnly_bind failsOnly_byte fun _ => ?_
  refine failsOnly_bind failsOnly_word32 fun length => ?_
  refine failsOnly_bind (failsOnly_take length.toNat) fun _ => ?_
  exact failsOnly_bind failsOnly_word32 fun _ => failsOnly_pure _

/-- Reading a section fails in one way only: there is no whole frame. -/
theorem eq_invalidSize_of_read {b : Bytes} {offset : UInt32} {e : BlockError}
    (h : read b offset = .error e) : e = .invalidSize := by
  rcases except_bind_eq_error.1 h with ht | ⟨tail, -, he⟩
  · exact eq_invalidSize_of_tailFrom ht
  · exact (failsOnly_frame offset).of_eval he

/-- The payload is given exactly if the flag is the standard one. -/
theorem standardPayload_eq_ok_iff {s : Section} {payload : Bytes} :
    s.standardPayload = .ok payload ↔ s.flag = standardFlag ∧ payload = s.payload := by
  by_cases hflag : s.flag = standardFlag
  · rw [standardPayload, if_pos hflag, Except.ok.injEq, eq_comm]
    exact (and_iff_right hflag).symm
  · rw [standardPayload, if_neg hflag]
    exact ⟨nofun, fun h => absurd h.1 hflag⟩

theorem standardPayload_eq_error_iff {s : Section} {e : BlockError} :
    s.standardPayload = .error e ↔ s.flag ≠ standardFlag ∧ e = .invalidFlag s.flag := by
  by_cases hflag : s.flag = standardFlag
  · rw [standardPayload, if_pos hflag]
    exact ⟨nofun, fun h => absurd hflag h.1⟩
  · rw [standardPayload, if_neg hflag, Except.error.injEq, eq_comm]
    exact (and_iff_right hflag).symm

/-- A frame that was written is the stored form of a section with the checksum of its contents. -/
theorem write_eq_stored (offset : UInt32) (flag : UInt8) (payload : Bytes) :
    write flag payload = stored ⟨offset, flag, payload, Checksum.ofSection flag payload⟩ :=
  rfl

/-- **A written frame is read back** from in front of any bytes. -/
theorem read_write {pre payload : Bytes} {offset : UInt32} (flag : UInt8) (post : Bytes)
    (hp : pre.length = offset.toNat) (h : payload.length < 2 ^ 32) :
    read (pre ++ (write flag payload ++ post)) offset =
      .ok ⟨offset, flag, payload, Checksum.ofSection flag payload⟩ := by
  refine read_eq_ok_iff.2 ⟨rfl, h, pre, post, ?_, hp⟩
  rw [write_eq_stored offset, List.append_assoc]

/-- The trailer is accepted exactly when it is the checksum of the contents. -/
theorem verify_eq_ok {s : Section} :
    s.verify = .ok () ↔ Checksum.ofSection s.flag s.payload = s.checksum := by
  simp only [verify]
  split
  · next h => exact ⟨fun _ => h, fun _ => rfl⟩
  · next h => exact ⟨nofun, fun hc => absurd hc h⟩

/-- Any other trailer is reported, with the checksum that was computed. -/
theorem verify_of_ne {s : Section} (h : Checksum.ofSection s.flag s.payload ≠ s.checksum) :
    s.verify = .error (.checksumMismatch s.offset s.checksum
      (Checksum.ofSection s.flag s.payload)) := by
  simp only [verify]
  rw [if_neg h]

/-- **A section verifies exactly if its frame is the written one.** -/
theorem stored_eq_write_iff {s : Section} :
    s.stored = write s.flag s.payload ↔ s.verify = .ok () := by
  rw [verify_eq_ok, write_eq_stored s.offset]
  constructor
  · intro h
    have hsum := (List.append_inj' (List.cons.inj h).2 (by simp)).2
    exact (ofWord32_inj hsum).symm
  · intro h
    rw [h]

end Section

end SeriesBlock
