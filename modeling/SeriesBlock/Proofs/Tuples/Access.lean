import Mathlib.Data.UInt
import SeriesBlock.Proofs.Collecting
import SeriesBlock.Proofs.Faults
import SeriesBlock.Proofs.Machine.Record
import SeriesBlock.Proofs.Tuples.Offsets

/-!
# Access to stored tuples

The offset of a field stands where the numbers of the tuple and of the field say (`offsetAt`), and a field is the
symbol that its offset leads to (`field`). Looking one offset up after the other while the bytes of a tuple are
read is looking all of them up in order (`eval_resolve`). So a tuple is the list of its fields, or the failure
of the first that fails (`at?_of_lt`), and which tuples there are is a matter of numbers alone.

A field fails with a fault of a symbol and never with one of size. So the fault of size is left for tuples that
are not there. The main statement is `stored_tuples_are_read_in_place`.
-/

set_option autoImplicit false

namespace SeriesBlock

open Bytes

/-! ## Words -/

namespace Bytes

/-- Bytes of whole words are those of a list of words. -/
theorem exists_flatMap_ofWord32 {b : Bytes} {n : Nat} (h : b.length = n * 4) :
    ∃ words : List UInt32, words.length = n ∧ b = words.flatMap ofWord32 := by
  induction n generalizing b with
  | zero => exact ⟨[], rfl, List.length_eq_zero_iff.1 (by omega)⟩
  | succ n ih =>
      obtain ⟨v, rest, rfl⟩ := Decoder.exists_word32 (b := b) (by omega)
      rw [List.length_append, length_ofWord32] at h
      obtain ⟨words, hlength, rfl⟩ := ih (b := rest) (by omega)
      exact ⟨v :: words, congrArg (· + 1) hlength, rfl⟩

/-- A part of a part is a part of the whole. -/
theorem part_part {b : Bytes} {start length k n : Nat} (h : k + n ≤ length) :
    (b.part start length).part k n = b.part (start + k) n := by
  rw [part, part, part, List.drop_take, List.take_take, List.drop_drop, Nat.min_eq_left (by omega)]

end Bytes

namespace StoredTuples

/-! ## Fields -/

/-- The offset stored for field `k` of the tuple with number `i`. -/
def offsetAt (t : StoredTuples) (i k : Nat) : UInt32 :=
  UInt32.ofNat (toNat (t.payload.part ((i * t.arity.toNat + k) * 4) 4))

/-- Field `k` of the tuple with number `i`. -/
def field (t : StoredTuples) (i k : Nat) : Except BlockError String :=
  Symbol.text t.symbols (t.offsetAt i k)

section Fields

variable (t : StoredTuples)

/-- The offsets of a tuple that is there stand in the payload. -/
theorem offset_le {i k : Nat} (hi : i < t.length) (hk : k < t.arity.toNat) :
    (i * t.arity.toNat + k) * 4 + 4 ≤ t.payload.length := by
  have hin := t.lt_length_iff.1 hi
  have hwidth : i * t.width = i * t.arity.toNat * 4 := by
    rw [width, Nat.mul_comm 4, Nat.mul_assoc]
  rw [hwidth, width] at hin
  omega

/-- The bytes of a tuple are its offsets. -/
theorem part_eq_offsets {i : Nat} (hi : i < t.length) :
    t.payload.part (i * t.width) t.width =
      ((List.range t.arity.toNat).map (t.offsetAt i)).flatMap ofWord32 := by
  have hin := t.lt_length_iff.1 hi
  have hwidth : t.width = t.arity.toNat * 4 := Nat.mul_comm 4 _
  have hlength : (t.payload.part (i * t.width) t.width).length = t.arity.toNat * 4 := by
    rw [part, List.length_take, List.length_drop, ← hwidth]
    omega
  obtain ⟨words, hwords, hbytes⟩ := exists_flatMap_ofWord32 hlength
  rw [hbytes]
  congr 1
  apply List.ext_getElem
  · rw [hwords, List.length_map, List.length_range]
  · intro k hk _
    have hword : (t.payload.part (i * t.width) t.width).part (k * 4) 4 = ofWord32 words[k] := by
      rw [hbytes]
      exact take_drop_flatMap (fun v _ => length_ofWord32 v) hk
    rw [part_part (by omega), hwidth, ← Nat.mul_assoc, ← Nat.add_mul] at hword
    rw [List.getElem_map, List.getElem_range, offsetAt, hword, ofNat_toNat_ofWord32]

end Fields

section Access

variable (t : StoredTuples) (i : UInt64)

/-- **A tuple that is there is the list of its fields**, or the failure of the first that fails. -/
theorem at?_of_lt (hi : i.toNat < t.length) :
    t.at? i = (List.range t.arity.toNat).mapM (t.field i.toNat) := by
  have hoffsets := eval_resolve t.symbols ((List.range t.arity.toNat).map (t.offsetAt i.toNat)) []
  rw [List.append_nil, List.length_map, List.length_range, ← t.part_eq_offsets hi, part] at hoffsets
  rw [at?, if_pos (t.lt_length_iff.1 hi), hoffsets, List.mapM_map]
  rfl

/-- A tuple depends on no more than its own fields. -/
theorem at?_congr {t u : StoredTuples} {i : UInt64} (harity : u.arity = t.arity) (hi : i.toNat < t.length)
    (hi' : i.toNat < u.length) (hfields : ∀ k < t.arity.toNat, u.field i.toNat k = t.field i.toNat k) :
    u.at? i = t.at? i := by
  have hsame : (List.range t.arity.toNat).map (u.field i.toNat) =
      (List.range t.arity.toNat).map (t.field i.toNat) :=
    List.map_congr_left fun k hk => hfields k (List.mem_range.1 hk)
  have hall := congrArg (List.mapM id) hsame
  rw [List.mapM_map, List.mapM_map] at hall
  rw [t.at?_of_lt i hi, u.at?_of_lt i hi', harity]
  exact hall

/-- A tuple that is not there is a fault of size. -/
theorem at?_of_le (hi : t.length ≤ i.toNat) : t.at? i = .error .invalidSize := by
  rw [at?, if_neg fun hin => Nat.not_lt.2 hi (t.lt_length_iff.2 hin)]

theorem field_ne_invalidSize (i k : Nat) : t.field i k ≠ .error .invalidSize := by
  intro h
  rcases Symbol.fault_of_text h with he | ⟨_, he⟩
  · cases he
  · cases he

theorem at?_eq_invalidSize_iff : t.at? i = .error .invalidSize ↔ t.length ≤ i.toNat := by
  constructor
  · intro h
    by_contra hi
    rw [t.at?_of_lt i (Nat.lt_of_not_le hi), mapM_range_eq_error_iff] at h
    obtain ⟨k, -, -, hfails⟩ := h
    exact t.field_ne_invalidSize _ _ hfails
  · exact t.at?_of_le i

theorem getElem?_toList : t.toList[i.toNat]? = if i.toNat < t.length then some (t.at? i) else none := by
  rw [toList, List.getElem?_map]
  by_cases hi : i.toNat < t.length
  · rw [List.getElem?_range hi, if_pos hi, Option.map_some, UInt64.ofNat_toNat]
  · rw [List.getElem?_eq_none (by simpa using hi), if_neg hi, Option.map_none]

end Access

/-! ## Access as a whole -/

/-- **Stored tuples are read in place.** Of accepted tuples, the one at a position is a fault of size exactly if
there are no more than that many. The others are read field by field at the offsets that stand where the position
and the field say: with all fields, or with the fault of the first that fails, which is one of its symbol. Walking
through all of them gives each position its own outcome, and no tuple depends on more than its own fields. The
addresses are computed in 64 bits, where each step that does not fit is refused, with the same outcome. -/
theorem stored_tuples_are_read_in_place {arity : UInt64} {payload symbols : Bytes} {t : StoredTuples}
    (h : ofPayload arity payload symbols = .ok t) (i : UInt64) :
    t.length = payload.length / (4 * arity.toNat) ∧
      (t.at? i = .error .invalidSize ↔ t.length ≤ i.toNat) ∧
      (i.toNat < t.length →
        (∀ k < arity.toNat, (i.toNat * arity.toNat + k) * 4 + 4 ≤ payload.length) ∧
        (∀ strings, t.at? i = .ok strings ↔
          strings.length = arity.toNat ∧ ∀ k s, strings[k]? = some s → t.field i.toNat k = .ok s) ∧
        (∀ e, t.at? i = .error e ↔
          ∃ k < arity.toNat, (∀ j < k, ∃ s, t.field i.toNat j = .ok s) ∧ t.field i.toNat k = .error e) ∧
        ∀ k e, t.field i.toNat k = .error e → e = .invalidLength ∨ ∃ text, e = .invalidUtf8 text) ∧
      (t.toList.length = t.length ∧
        t.toList[i.toNat]? = if i.toNat < t.length then some (t.at? i) else none) ∧
      (∀ u : StoredTuples, u.arity = t.arity → i.toNat < t.length → i.toNat < u.length →
        (∀ k < arity.toNat, u.field i.toNat k = t.field i.toNat k) → u.at? i = t.at? i) ∧
      (payload.length < 2 ^ 64 →
        ∃ raw, Machine.tupleBytes t i = .ends raw ∧
          t.at? i = raw >>= (resolve symbols arity.toNat).eval) := by
  obtain ⟨-, rfl, rfl, rfl⟩ := ofPayload_eq_ok_iff.1 h
  refine ⟨rfl, t.at?_eq_invalidSize_iff i, ?_, ⟨?_, t.getElem?_toList i⟩, ?_, ?_⟩
  · intro hi
    refine ⟨fun k => t.offset_le hi, ?_, ?_, fun k e => Symbol.fault_of_text⟩
    · intro strings
      rw [t.at?_of_lt i hi, except_mapM_range_eq_ok_iff]
    · intro e
      rw [t.at?_of_lt i hi, mapM_range_eq_error_iff]
  · rw [toList, List.length_map, List.length_range]
  · intro u harity hi hi' hfields
    exact at?_congr harity hi hi' hfields
  · intro hsize
    refine ⟨_, Machine.tupleBytes_eq hsize i, ?_⟩
    rw [at?]
    split
    · rfl
    · rfl

/-- Three pairs of symbols, of which the second has a field that is no text, and bytes that make no fourth. -/
def raggedPairs : StoredTuples :=
  ⟨2, payloadOf [[0, 2], [0, 4], [2, 0]] ++ [0, 0, 0, 2, 0], [1, 97, 1, 98, 1, 255], by decide, by decide⟩

/-- The pairs on both sides of a bad one are read. Twice the bytes of a pair, as often as the last position says,
are a multiple of `2 ^ 64`. -/
theorem stored_tuples_are_read_in_place_ragged :
    ofPayload 2 raggedPairs.payload raggedPairs.symbols = .ok raggedPairs ∧ raggedPairs.length = 3 ∧
      raggedPairs.at? 0 = .ok ["a", "b"] ∧
      raggedPairs.at? 1 = .error (.invalidUtf8 "invalid utf-8 sequence of 1 bytes from index 0") ∧
      raggedPairs.toList[2]? = some (.ok ["b", "a"]) ∧
      raggedPairs.at? 3 = .error .invalidSize ∧ raggedPairs.at? (2 ^ 61) = .error .invalidSize := by
  have hnew : ofPayload 2 raggedPairs.payload raggedPairs.symbols = .ok raggedPairs := rfl
  have hread := fun i => stored_tuples_are_read_in_place hnew i
  have hlength : raggedPairs.length = 3 := (hread 0).1.trans (by decide +kernel)
  have hpair : ∀ i a b, i.toNat < 3 → raggedPairs.field i.toNat 0 = .ok a →
      raggedPairs.field i.toNat 1 = .ok b → raggedPairs.at? i = .ok [a, b] := by
    intro i a b hi ha hb
    refine ((((hread i).2.2.1 (hlength ▸ hi)).2.1 [a, b]).2 ⟨rfl, fun k s hk => ?_⟩)
    match k, hk with
    | 0, rfl => exact ha
    | 1, rfl => exact hb
  refine ⟨hnew, hlength, hpair 0 "a" "b" (by decide) (by decide +kernel) (by decide +kernel), ?_, ?_, ?_, ?_⟩
  · refine (((hread 1).2.2.1 (by rw [hlength]; decide)).2.2.1 _).2 ⟨1, by decide, ?_, by decide +kernel⟩
    intro j hj
    obtain rfl : j = 0 := by omega
    exact ⟨"a", by decide +kernel⟩
  · refine ((hread 2).2.2.2.1.2.trans (if_pos (by rw [hlength]; decide))).trans (congrArg some ?_)
    exact hpair 2 "b" "a" (by decide) (by decide +kernel) (by decide +kernel)
  · exact (hread 3).2.1.2 (by rw [hlength]; decide)
  · exact (hread (2 ^ 61)).2.1.2 (by rw [hlength]; decide +kernel)

end StoredTuples

end SeriesBlock
