import SeriesBlock.Proofs.Locality
import SeriesBlock.Proofs.Machine.Reader
import SeriesBlock.Proofs.TextFaults

/-!
# Resolving symbols

A symbol is found at an offset exactly if a length stands there and as many bytes behind it
(`lookup_eq_ok_iff_countedAt`); every other offset is a fault of length. It is text exactly if its bytes are the
written form of one (`text_eq_ok_iff`). Bytes that are found but are no text are reported by the longest part
from the front that is, and by what is wrong after it (`text_of_fault`).

The main statement is `symbols_are_resolved_exactly`.
-/

set_option autoImplicit false

namespace SeriesBlock.Symbol

open Bytes Decoder Utf8

variable {b w : Bytes} {offset : UInt32}

/-- What is read at a position are a length and as many bytes, and reading ends behind these. -/
theorem run_stored_drop {n : Nat} {rest : Bytes} (hn : n ≤ b.length) :
    stored.run (b.drop n) = (.ok w, rest) ↔ ∃ length used, b.CountedAt n 0 length used ∧
      w = b.part (n + used) length.toNat ∧ rest = b.drop (n + used + length.toNat) := by
  constructor
  · intro hrun
    obtain ⟨length, mid, hlength, htake⟩ := run_bind_eq_ok.1 hrun
    obtain ⟨used, hcounted, rfl⟩ := run_uvarint_drop.1 hlength
    -- the length ends inside the buffer, so what is taken begins at a position of it
    obtain ⟨hfits, hw, hrest⟩ := (run_take_drop (le_of_decode_drop hn hcounted)).1 htake
    exact ⟨length, used, ⟨hn, hcounted, hfits⟩, hw, hrest⟩
  · rintro ⟨length, used, ⟨-, hcounted, hfits⟩, rfl, rfl⟩
    have hlength := run_uvarint_drop.2 ⟨used, hcounted, rfl⟩
    have htake := (run_take_drop (le_of_decode_drop hn hcounted)).2 ⟨hfits, rfl, rfl⟩
    exact run_bind_eq_ok.2 ⟨length, _, hlength, htake⟩

/-- **A symbol is found where a length and as many bytes stand.** -/
theorem lookup_eq_ok_iff_countedAt :
    lookup b offset = .ok w ↔ ∃ length used, b.CountedAt offset.toNat 0 length used ∧
      w = b.part (offset.toNat + used) length.toNat := by
  rw [lookup_eq_ok_iff, tailFrom_eval_eq_ok]
  constructor
  · rintro ⟨hn, rest, hrun⟩
    obtain ⟨length, used, hcounted, hw, -⟩ := (run_stored_drop hn).1 hrun
    exact ⟨length, used, hcounted, hw⟩
  · rintro ⟨length, used, hcounted, rfl⟩
    exact ⟨hcounted.inside, _, (run_stored_drop hcounted.inside).2 ⟨length, used, hcounted, rfl, rfl⟩⟩

theorem eq_invalidLength_of_lookup {e : BlockError} (h : lookup b offset = .error e) : e = .invalidLength := by
  rw [lookup] at h
  split at h
  · cases h
  · cases h
    rfl

/-- **A symbol is text exactly if its bytes are the written form of one.** -/
theorem text_eq_ok_iff {s : String} : text b offset = .ok s ↔ lookup b offset = .ok (encode s) := by
  constructor
  · intro h
    obtain ⟨w, hlookup, hdecode⟩ := except_bind_eq_ok.1 h
    cases hd : decode w with
    | ok s' =>
        rw [hd] at hdecode
        cases hdecode
        rw [hlookup, decode_eq_ok_iff.1 hd]
    | error fault =>
        rw [hd] at hdecode
        cases hdecode
  · intro h
    refine except_bind_eq_ok.2 ⟨_, h, ?_⟩
    rw [decode_encode]

theorem text_of_lookup_error {e : BlockError} (h : lookup b offset = .error e) : text b offset = .error e := by
  rw [text, h]
  rfl

/-- A symbol that is found but is no text is reported in the words of its fault. -/
theorem text_of_fault {fault : Fault} (hlookup : lookup b offset = .ok w) (h : decode w = .error fault) :
    text b offset = .error (.invalidUtf8 fault.message) := by
  refine except_bind_eq_error.2 (Or.inr ⟨w, hlookup, ?_⟩)
  rw [h]

/-- Bytes that are no text have a fault. -/
theorem exists_fault (h : ¬ ∃ s, w = encode s) : ∃ fault, decode w = .error fault := by
  cases hd : decode w with
  | ok s => exact absurd ⟨s, decode_eq_ok_iff.1 hd⟩ h
  | error fault => exact ⟨fault, rfl⟩

/-- **Symbols are resolved exactly.** In any buffer and at any offset: a symbol is found exactly if the offset is a
position of the buffer, a length stands there and as many bytes as it says follow, and is these bytes; anything
else is a fault of length. It is text exactly if its bytes are the written form of a text. If they are not, the
words give the length of the longest part from the front that is text, and speak of an incomplete sequence exactly
if the bytes after it end inside a scalar, and otherwise of the longest part there that begins one, of one byte at
least. -/
theorem symbols_are_resolved_exactly (b : Bytes) (offset : UInt32) :
    (∀ w, lookup b offset = .ok w ↔ ∃ length used, b.CountedAt offset.toNat 0 length used ∧
      w = b.part (offset.toNat + used) length.toNat) ∧
    (∀ e, lookup b offset = .error e → e = .invalidLength ∧ text b offset = .error .invalidLength) ∧
    (∀ s, text b offset = .ok s ↔ lookup b offset = .ok (encode s)) ∧
    (∀ w, lookup b offset = .ok w → (¬ ∃ s, w = encode s) → ∃ n, LongestText w n ∧
      ((BreaksOff (w.drop n) ∧
          text b offset = .error (.invalidUtf8 s!"incomplete utf-8 byte sequence from index {n}")) ∨
        (¬ BreaksOff (w.drop n) ∧ ∃ k, MaximalSubpart (w.drop n) k ∧
          text b offset = .error (.invalidUtf8 s!"invalid utf-8 sequence of {k} bytes from index {n}")))) ∧
    (b.length < 2 ^ 64 → Machine.lookup b offset = Machine.Run.ends (lookup b offset) ∧
      Machine.text b offset = Machine.Run.ends (text b offset)) := by
  refine ⟨fun w => lookup_eq_ok_iff_countedAt, fun e he => ?_, fun s => text_eq_ok_iff,
    fun w hlookup hw => ?_, fun hb => ⟨Machine.lookup_eq hb offset, Machine.text_eq hb offset⟩⟩
  · obtain rfl := eq_invalidLength_of_lookup he
    exact ⟨rfl, text_of_lookup_error he⟩
  · obtain ⟨⟨n, flaw⟩, hfault⟩ := exists_fault hw
    have htext := text_of_fault hlookup hfault
    refine ⟨n, longestText_of_decode hfault, ?_⟩
    -- each kind of flaw has a wording of its own
    rcases flaw_of_decode hfault with ⟨rfl, hbreaks⟩ | ⟨k, rfl, hbreaks, hpart⟩
    · exact Or.inl ⟨hbreaks, htext⟩
    · exact Or.inr ⟨hbreaks, k, hpart, htext⟩

/-- After the letter a symbol ends inside a scalar of three bytes; the other one begins a scalar of four bytes, of
which the third is ruled out. -/
example :
    let b : Bytes := [3, 97, 0xe2, 0x82, 3, 0xf0, 0x9f, 0x41]
    text b 0 = .error (.invalidUtf8 "incomplete utf-8 byte sequence from index 1") ∧
      text b 4 = .error (.invalidUtf8 "invalid utf-8 sequence of 2 bytes from index 0") := by
  decide +kernel

end SeriesBlock.Symbol
