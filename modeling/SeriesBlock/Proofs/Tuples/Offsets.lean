import SeriesBlock.Proofs.Rows
import SeriesBlock.Proofs.Steps
import SeriesBlock.Tuples.Stored

/-!
# Runs of offsets

Looking one offset up after the other while the bytes of a tuple are read is looking all of them up in order
(`eval_resolve`). So a payload that is made of runs of offsets, and of bytes that are too few for another, holds
the tuples that the runs lead to (`length_of_offsets`, `toList_of_offsets`).
-/

set_option autoImplicit false

namespace SeriesBlock.StoredTuples

open Bytes

/-! ## Looking offsets up -/

/-- **Looking up while reading is looking up in order.** -/
theorem eval_resolve (symbols : Bytes) (offsets : List UInt32) (rest : Bytes) :
    (resolve symbols offsets.length).eval (offsets.flatMap ofWord32 ++ rest) =
      offsets.mapM (Symbol.text symbols) := by
  induction offsets with
  | nil => rfl
  | cons o offsets ih =>
      have hword : Decoder.word32.run (ofWord32 o ++ (offsets.flatMap ofWord32 ++ rest)) =
          (.ok o, offsets.flatMap ofWord32 ++ rest) := Decoder.run_word32_eq_ok.2 rfl
      rw [List.length_cons, resolve, List.flatMap_cons, List.append_assoc, Decoder.eval,
        Decoder.run_bind_ok hword, List.mapM_cons]
      cases Symbol.text symbols o with
      | error e => rfl
      | ok s =>
          rw [← ih]
          show ((resolve symbols offsets.length >>= fun more => pure (s :: more)).eval
            (offsets.flatMap ofWord32 ++ rest)) = _
          rw [Decoder.eval_bind, Decoder.eval_eq_step]
          cases (resolve symbols offsets.length).step (offsets.flatMap ofWord32 ++ rest) with
          | error e => rfl
          | ok p => rfl

/-! ## Payloads -/

theorem width_pos (t : StoredTuples) : 0 < t.width :=
  Nat.mul_pos (by decide) t.arity_pos

/-- The tuples that are there are those that end in the payload. -/
theorem lt_length_iff (t : StoredTuples) {n : Nat} : n < t.length ↔ n * t.width + t.width ≤ t.payload.length := by
  rw [length, ← Nat.succ_mul]
  exact Nat.le_div_iff_mul_le t.width_pos

variable {t : StoredTuples} {offsets : List (List UInt32)} {rest : Bytes}

/-- The bytes of a run of offsets. -/
def payloadOf (offsets : List (List UInt32)) : Bytes :=
  offsets.flatMap fun o => o.flatMap ofWord32

theorem length_of_mem_payloadOf (hwidth : ∀ o ∈ offsets, o.length = t.arity.toNat) :
    ∀ o ∈ offsets, (o.flatMap ofWord32).length = t.width := by
  intro o ho
  rw [length_flatMap_of_length fun v _ => length_ofWord32 v, hwidth o ho, Nat.mul_comm]
  rfl

theorem length_payloadOf (hwidth : ∀ o ∈ offsets, o.length = t.arity.toNat) :
    (payloadOf offsets).length = offsets.length * t.width :=
  length_flatMap_of_length (length_of_mem_payloadOf hwidth)

/-- There are as many tuples as runs of offsets; what is left is too short for one more. -/
theorem length_of_offsets (hp : t.payload = payloadOf offsets ++ rest)
    (hwidth : ∀ o ∈ offsets, o.length = t.arity.toNat) (hrest : rest.length < t.width) :
    t.length = offsets.length := by
  rw [length, hp, List.length_append, length_payloadOf hwidth, Nat.mul_comm,
    Nat.mul_add_div t.width_pos, Nat.div_eq_of_lt hrest, Nat.add_zero]

/-- **Each tuple is what its offsets lead to.** -/
theorem at?_of_offsets (hp : t.payload = payloadOf offsets ++ rest)
    (hwidth : ∀ o ∈ offsets, o.length = t.arity.toNat) {i : UInt64} (hi : i.toNat < offsets.length) :
    t.at? i = offsets[i.toNat].mapM (Symbol.text t.symbols) := by
  have hlength := length_payloadOf hwidth
  have hend : i.toNat * t.width + t.width ≤ (payloadOf offsets).length := by
    rw [hlength, ← Nat.succ_mul]
    exact Nat.mul_le_mul_right _ hi
  have hbytes : (t.payload.drop (i.toNat * t.width)).take t.width = offsets[i.toNat].flatMap ofWord32 := by
    rw [hp, List.drop_append_of_le_length (by omega),
      List.take_append_of_le_length (by rw [List.length_drop]; omega)]
    exact take_drop_flatMap (length_of_mem_payloadOf hwidth) hi
  have hread := eval_resolve t.symbols offsets[i.toNat] []
  rw [List.append_nil, hwidth _ (List.getElem_mem hi)] at hread
  rw [at?, if_pos (by rw [hp, List.length_append]; omega), hbytes, hread]

/-- **The tuples of a payload are those that its offsets lead to**, each with its own outcome. -/
theorem toList_of_offsets (hp : t.payload = payloadOf offsets ++ rest)
    (hwidth : ∀ o ∈ offsets, o.length = t.arity.toNat) (hrest : rest.length < t.width)
    (hsize : offsets.length < 2 ^ 64) :
    t.toList = offsets.map fun o => o.mapM (Symbol.text t.symbols) := by
  have hlength := length_of_offsets hp hwidth hrest
  apply List.ext_getElem
  · rw [toList, List.length_map, List.length_range, hlength, List.length_map]
  · intro i _ hi
    rw [List.length_map] at hi
    have hnat : (UInt64.ofNat i).toNat = i := UInt64.toNat_ofNat_of_lt' (Nat.lt_trans hi hsize)
    have hat := at?_of_offsets hp hwidth (i := UInt64.ofNat i) (by rwa [hnat])
    simp only [hnat] at hat
    rw [List.getElem_map, ← hat]
    simp [toList]

end SeriesBlock.StoredTuples
