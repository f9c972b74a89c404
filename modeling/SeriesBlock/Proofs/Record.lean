import SeriesBlock.Index
import SeriesBlock.Proofs.Steps

/-!
# Whole records

`Series.wholeRecord` reads the record of a series with all its chunks, whatever times they span, and
takes the declared numbers of labels and chunks on trust. `Series.record` refuses a declared number
that the bytes to follow cannot hold. It never refuses a record that can be read whole
(`run_count_of_readLabels`, `run_count_of_entries`): a label takes two bytes at least and a chunk
entry three.
-/

set_option autoImplicit false

namespace SeriesBlock.Series

open Decoder

variable {symbols b rest : Bytes}

/-- Reads `n` chunk entries. -/
def entries : Nat → Decoder (List ChunkMeta)
  | 0 => pure []
  | n + 1 => do
    let first ← Decoder.varint
    let last ← Decoder.varint
    let ref ← Decoder.uvarint32
    let more ← entries n
    pure (⟨ref, first, last⟩ :: more)

/-- Reads a record with all its chunks. Declared numbers are not checked against the bytes to
follow. -/
def wholeRecord (symbols : Bytes) : Decoder (List Label × List ChunkMeta) := do
  let offsets ← Decoder.uvarint
  if offsets.toNat % 2 = 1 then Decoder.fail .invalidSize
  else
    let labels ← readLabels symbols (offsets.toNat / 2)
    let declared ← Decoder.uvarint
    let chunks ← entries declared.toNat
    pure (labels, chunks)

/-! ## How much is used -/

theorem uses_readLabels (symbols : Bytes) (n : Nat) : Uses (readLabels symbols n) (2 * n) := by
  induction n with
  | zero => exact uses_pure []
  | succ n ih =>
      have h : Uses (readLabels symbols (n + 1)) (1 + (1 + (0 + (0 + (2 * n + 0))))) :=
        uses_bind uses_uvarint32 fun _ => uses_bind uses_uvarint32 fun _ =>
          uses_bind (uses_ofExcept _) fun _ => uses_bind (uses_ofExcept _) fun _ =>
            uses_bind ih fun _ => uses_pure _
      have e : 1 + (1 + (0 + (0 + (2 * n + 0)))) = 2 * (n + 1) := by omega
      rwa [e] at h

theorem uses_entries (n : Nat) : Uses (entries n) (3 * n) := by
  induction n with
  | zero => exact uses_pure []
  | succ n ih =>
      have h : Uses (entries (n + 1)) (1 + (1 + (1 + (3 * n + 0)))) :=
        uses_bind uses_varint fun _ => uses_bind uses_varint fun _ =>
          uses_bind uses_uvarint32 fun _ => uses_bind ih fun _ => uses_pure _
      have e : 1 + (1 + (1 + (3 * n + 0))) = 3 * (n + 1) := by omega
      rwa [e] at h

/-- What it takes to read one entry more. -/
theorem run_entries_succ {n : Nat} {cs : List ChunkMeta} :
    (entries (n + 1)).run b = (.ok cs, rest) ↔
      ∃ first b₁, varint.run b = (.ok first, b₁) ∧
      ∃ last b₂, varint.run b₁ = (.ok last, b₂) ∧
      ∃ ref b₃, uvarint32.run b₂ = (.ok ref, b₃) ∧
      ∃ more, (entries n).run b₃ = (.ok more, rest) ∧ cs = ⟨ref, first, last⟩ :: more := by
  constructor
  · intro h
    obtain ⟨first, b₁, h₁, h⟩ := run_bind_eq_ok.1 h
    obtain ⟨last, b₂, h₂, h⟩ := run_bind_eq_ok.1 h
    obtain ⟨ref, b₃, h₃, h⟩ := run_bind_eq_ok.1 h
    obtain ⟨more, b₄, h₄, h⟩ := run_bind_eq_ok.1 h
    cases h
    exact ⟨first, b₁, h₁, last, b₂, h₂, ref, b₃, h₃, more, h₄, rfl⟩
  · rintro ⟨first, b₁, h₁, last, b₂, h₂, ref, b₃, h₃, more, h₄, rfl⟩
    exact run_bind_eq_ok.2 ⟨first, b₁, h₁, run_bind_eq_ok.2 ⟨last, b₂, h₂,
      run_bind_eq_ok.2 ⟨ref, b₃, h₃, run_bind_eq_ok.2 ⟨more, rest, h₄, rfl⟩⟩⟩⟩

/-- As many entries are read as were asked for. -/
theorem length_of_run_entries {n : Nat} {cs : List ChunkMeta}
    (h : (entries n).run b = (.ok cs, rest)) : cs.length = n := by
  induction n generalizing b cs with
  | zero =>
      cases h
      rfl
  | succ n ih =>
      obtain ⟨first, b₁, -, last, b₂, -, ref, b₃, -, more, h₄, rfl⟩ := run_entries_succ.1 h
      rw [List.length_cons, ih h₄]

/-- Reading entries for a range, step by step: the first that starts after the range ends the
reading, and each of the others is kept or left out. -/
theorem eval_readChunks_succ (mint maxt : Timestamp) (n : Nat) (b : Bytes) :
    (readChunks mint maxt (n + 1)).eval b = varint.step b >>= fun first =>
      if maxt < first.1 then .ok ([], n + 1)
      else varint.step first.2 >>= fun last => uvarint32.step last.2 >>= fun ref =>
        (readChunks mint maxt n).eval ref.2 >>= fun p =>
          .ok (if last.1 < mint then (p.1, p.2 + 1)
            else (⟨ref.1, first.1, last.1⟩ :: p.1, p.2)) := by
  rw [readChunks, eval_bind]
  congr 1
  funext first
  by_cases hmax : maxt < first.1
  · rw [if_pos hmax, if_pos hmax]
    rfl
  · rw [if_neg hmax, if_neg hmax, eval_bind]
    congr 1
    funext last
    rw [eval_bind]
    congr 1
    funext ref
    rw [eval_bind, eval_eq_step, bind_assoc]
    congr 1
    funext p
    by_cases hmin : last.1 < mint
    · simp only [if_pos hmin]
      rfl
    · simp only [if_neg hmin]
      rfl

/-! ## Declared numbers -/

/-- A number of label offsets that can be read passes the check. -/
theorem run_count_of_readLabels {u : UInt64} {mid : Bytes} {labels : List Label}
    (hu : uvarint.run b = (.ok u, mid)) (heven : ¬ u.toNat % 2 = 1)
    (hl : (readLabels symbols (u.toNat / 2)).run mid = (.ok labels, rest)) :
    (count 1).run b = (.ok u.toNat, mid) := by
  have hused := uses_readLabels symbols (u.toNat / 2)
  have e : 2 * (u.toNat / 2) = 1 * u.toNat := by omega
  rw [e] at hused
  exact run_count_of_uses (by decide) hu hused hl

/-- A number of chunk entries that can be read passes the check. -/
theorem run_count_of_entries {u : UInt64} {mid : Bytes} {cs : List ChunkMeta}
    (hu : uvarint.run b = (.ok u, mid)) (hc : (entries u.toNat).run mid = (.ok cs, rest)) :
    (count 3).run b = (.ok u.toNat, mid) :=
  run_count_of_uses (by decide) hu (uses_entries u.toNat) hc

/-- A record that can be read whole is read for a range by filtering its entries as
`readChunks` does. -/
theorem run_record_of_wholeRecord {labels : List Label} {cs : List ChunkMeta}
    (h : (wholeRecord symbols).run b = (.ok (labels, cs), rest)) :
    ∃ mid, (entries cs.length).run mid = (.ok cs, rest) ∧
      ∀ (mint maxt : Timestamp) (kept : List ChunkMeta) (skipped : Nat) (left : Bytes),
        (readChunks mint maxt cs.length).run mid = (.ok (kept, skipped), left) →
        (record symbols mint maxt).run b = (.ok (labels, kept, skipped), left) := by
  obtain ⟨offsets, b₁, h₁, h⟩ := run_bind_eq_ok.1 h
  split at h
  · cases h
  · next heven =>
    obtain ⟨labels', b₂, h₂, h⟩ := run_bind_eq_ok.1 h
    obtain ⟨declared, b₃, h₃, h⟩ := run_bind_eq_ok.1 h
    obtain ⟨cs', b₄, h₄, h⟩ := run_bind_eq_ok.1 h
    cases h
    have hn := length_of_run_entries h₄
    rw [hn]
    -- from the entries on, the two readers differ only in what they keep
    refine ⟨b₃, h₄, ?_⟩
    intro mint maxt kept skipped left hk
    refine run_bind_eq_ok.2 ⟨offsets.toNat, b₁, run_count_of_readLabels h₁ heven h₂, ?_⟩
    rw [if_neg heven]
    refine run_bind_eq_ok.2 ⟨labels, b₂, h₂, ?_⟩
    refine run_bind_eq_ok.2 ⟨declared.toNat, b₃, run_count_of_entries h₃ h₄, ?_⟩
    exact run_bind_eq_ok.2 ⟨(kept, skipped), left, hk, rfl⟩

end SeriesBlock.Series
