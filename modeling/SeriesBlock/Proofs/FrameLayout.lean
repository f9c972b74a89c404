import SeriesBlock.Proofs.Grammar
import SeriesBlock.Proofs.Machine.Reader

/-!
# Frames by position

A frame is read by a cursor, the machine slices its payload out of the buffer, and a frame is written
as a whole. All three agree on where its parts stand, counted from its offset: the flag, the declared
length one byte behind it, the payload at five, and the trailer after the payload
(`At.payload_eq`, `At.checksum_eq`, `At.stored_eq`).

The main statement is `frames_are_exact`: a frame is read exactly where it ends in the buffer, it
verifies exactly if its bytes are the written ones, and what was written is read back.
-/

set_option autoImplicit false

namespace SeriesBlock.Section

open Bytes

section Parts

variable {b : Bytes} {s : Section}

theorem At.flag_eq (h : At b s) : b[s.offset.toNat]? = some s.flag := by
  obtain ⟨pre, post, rfl, hpre⟩ := h.stored_at
  simp [stored, ← hpre]

theorem At.payload_eq (h : At b s) :
    b.part (s.offset.toNat + 5) s.payload.length = s.payload := by
  apply h.part_eq (s.flag :: ofWord32 (UInt32.ofNat s.payload.length)) (ofWord32 s.checksum)
  · simp [stored]
  · simp
  · rfl

theorem At.checksum_eq (h : At b s) :
    b.part (s.offset.toNat + 5 + s.payload.length) 4 = ofWord32 s.checksum := by
  apply h.part_eq (s.flag :: (ofWord32 (UInt32.ofNat s.payload.length) ++ s.payload)) []
  · simp [stored]
  · simp
    omega
  · simp

theorem At.stored_eq (h : At b s) :
    b.part s.offset.toNat (9 + s.payload.length) = s.stored := by
  apply h.part_eq [] []
  · simp
  · rfl
  · rw [length_stored, Nat.add_comm]

end Parts

/-- A frame that ends in the buffer has its head there. -/
theorem fits_iff {b : Bytes} {offset : UInt32} :
    Fits b offset ↔
      offset.toNat + 5 ≤ b.length ∧ offset.toNat + 9 + declared b offset ≤ b.length := by
  unfold Fits
  omega

/-- **Frames are exact.** A frame is read exactly where its head and the length declared in it fit the
buffer, and where they do not the fault is one of size. Its flag, its payload and its trailer are the bytes at
their places, and it verifies exactly if its bytes are the written ones. A written frame is read back from
between any other bytes. The machine, which slices the payload out of the buffer, reads the same. -/
theorem frames_are_exact :
    (∀ b offset, (∃ s, read b offset = .ok s) ↔
      offset.toNat + 5 ≤ b.length ∧ offset.toNat + 9 + declared b offset ≤ b.length) ∧
    (∀ b offset e, read b offset = .error e → e = .invalidSize) ∧
    (∀ b offset s, read b offset = .ok s →
      s.offset = offset ∧ b[offset.toNat]? = some s.flag ∧
      s.payload.length = declared b offset ∧
      s.payload = b.part (offset.toNat + 5) (declared b offset) ∧
      s.checksum.toNat = toNat (b.part (offset.toNat + 5 + declared b offset) 4) ∧
      (s.verify = .ok () ↔
        b.part offset.toNat (9 + declared b offset) = write s.flag s.payload)) ∧
    (∀ pre post flag payload, pre.length < 2 ^ 32 → payload.length < 2 ^ 32 →
      ∃ s, read (pre ++ (write flag payload ++ post)) (UInt32.ofNat pre.length) = .ok s ∧
        s.flag = flag ∧ s.payload = payload ∧ s.verify = .ok ()) ∧
    ∀ b offset, b.length < 2 ^ 64 →
      Machine.readSection b offset = Machine.Run.ends (read b offset) := by
  refine ⟨?_, fun _ _ _ => eq_invalidSize_of_read, ?_, ?_,
    fun _ offset hb => Machine.readSection_eq hb offset⟩
  · intro b offset
    rw [exists_read_iff_fits, fits_iff]
  · intro b offset s hs
    obtain ⟨rfl, hat⟩ := read_eq_ok_iff_at.1 hs
    rw [hat.declared_eq, hat.payload_eq, hat.checksum_eq, hat.stored_eq, toNat_ofWord32]
    exact ⟨rfl, hat.flag_eq, rfl, rfl, rfl, stored_eq_write_iff.symm⟩
  · intro pre post flag payload hpre hpayload
    have hoffset := (UInt32.toNat_ofNat_of_lt' hpre).symm
    exact ⟨_, read_write flag post hoffset hpayload, rfl, rfl, verify_eq_ok.2 rfl⟩

/-- A frame between other bytes, one with another trailer, and an offset past the end. -/
theorem frames_are_exact_abc :
    (∃ s, read ([9, 9] ++ (write 1 [97, 98, 99] ++ [7])) 2 = .ok s ∧
      s.flag = 1 ∧ s.payload = [97, 98, 99] ∧ s.verify = .ok ()) ∧
    (∃ s, read [9, 9, 1, 0, 0, 0, 1, 97, 0, 0, 0, 5, 7] 2 = .ok s ∧
      s.payload = [97] ∧ s.checksum.toNat = 5 ∧ s.verify ≠ .ok ()) ∧
    ¬ ∃ s, read [9, 9] 4294967295 = .ok s := by
  obtain ⟨hread, -, hparts, hback, -⟩ := frames_are_exact
  refine ⟨hback [9, 9] [7] 1 [97, 98, 99] (by decide) (by decide), ?_, ?_⟩
  · obtain ⟨s, hs⟩ := (hread [9, 9, 1, 0, 0, 0, 1, 97, 0, 0, 0, 5, 7] 2).2 (by decide)
    obtain ⟨-, hflag, -, hpayload, hchecksum, hverify⟩ := hparts _ _ s hs
    refine ⟨s, hs, hpayload, hchecksum, ?_⟩
    rw [ne_eq, hverify, ← Option.some.inj hflag, hpayload]
    decide +kernel
  · rw [hread]
    decide

end SeriesBlock.Section
