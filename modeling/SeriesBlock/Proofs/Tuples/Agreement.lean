import SeriesBlock.Proofs.Tuples.Access
import SeriesBlock.Proofs.Tuples.Flat
import SeriesBlock.Tuples

/-!
# The two representations of tuples

Tuples in memory are the rows of a flat list and are addressed by string; stored ones are the runs of offsets of a
payload and are addressed by tuple. What a representation lists (`Lists`) does not depend on which of the two it is:
in memory these are the rows (`lists_inMemory`), in a buffer what the runs lead to (`lists_stored`). In both, the
tuple at a position is the one that is listed there (`at?_inMemory`, `at?_stored`). The main statement is
`representations_agree`.
-/

set_option autoImplicit false

namespace SeriesBlock.Tuples

/-- What a list of tuples is taken for from outside, where each of them can be read. -/
structure Lists (t : Tuples) (arity : UInt64) (tuples : List (List String)) : Prop where
  arity_eq : t.arity = arity
  length_eq : t.length = tuples.length
  isEmpty_eq : t.isEmpty = tuples.isEmpty
  toList_eq : t.toList = tuples.map .ok

/-- Whether there are tuples is told by their number. -/
theorem isEmpty_of_length {t : Tuples} {tuples : List (List String)} (h : t.length = tuples.length) :
    t.isEmpty = tuples.isEmpty := by
  rw [isEmpty, h, Bool.eq_iff_iff, beq_iff_eq, List.isEmpty_iff, List.length_eq_zero_iff]

/-- An item of the list is the tuple that is listed there. -/
theorem Lists.getElem?_toList {t : Tuples} {arity : UInt64} {tuples : List (List String)}
    (h : Lists t arity tuples) {i : Nat} (hi : i < tuples.length) : t.toList[i]? = some (.ok tuples[i]) := by
  rw [h.toList_eq, List.getElem?_map, List.getElem?_eq_getElem hi, Option.map_some]

/-- **Tuples in memory are the rows of their flat list.** -/
theorem lists_inMemory {m : InMemoryTuples} {tuples : List (List String)}
    (hflat : m.strings = tuples.flatten) (hwidth : ∀ x ∈ tuples, x.length = m.arity.toNat) :
    Lists (inMemory m) m.arity tuples := by
  have htuples : m.toList = tuples := InMemoryTuples.toList_eq_of_flatten hflat hwidth
  have hlength : (inMemory m).length = tuples.length := by
    rw [← htuples, InMemoryTuples.length_toList, length]
  exact ⟨rfl, hlength, isEmpty_of_length hlength, by rw [toList, htuples]⟩

/-- **Stored tuples are what their offsets lead to.** -/
theorem lists_stored {s : StoredTuples} {tuples : List (List String)} {offsets : List (List UInt32)}
    {rest : Bytes} (hpayload : s.payload = StoredTuples.payloadOf offsets ++ rest)
    (hsymbols : offsets.map (List.map (Symbol.text s.symbols)) = tuples.map (List.map .ok))
    (hwidth : ∀ x ∈ tuples, x.length = s.arity.toNat) (hrest : rest.length < s.width)
    (hsize : tuples.length < 2 ^ 64) : Lists (stored s) s.arity tuples := by
  have hcount : offsets.length = tuples.length := by
    simpa using congrArg List.length hsymbols
  -- a run leads to as many strings as it has offsets
  have hlengths : offsets.map List.length = tuples.map List.length := by
    simpa [Function.comp_def] using congrArg (List.map List.length) hsymbols
  have hruns : ∀ o ∈ offsets, o.length = s.arity.toNat := by
    intro o ho
    have hmem : o.length ∈ tuples.map List.length := hlengths ▸ List.mem_map_of_mem ho
    obtain ⟨x, hx, heq⟩ := List.mem_map.1 hmem
    rw [← heq, hwidth x hx]
  have hlength : (stored s).length = tuples.length :=
    (StoredTuples.length_of_offsets hpayload hruns hrest).trans hcount
  refine ⟨rfl, hlength, isEmpty_of_length hlength, ?_⟩
  rw [toList, StoredTuples.toList_of_offsets hpayload hruns hrest (hcount ▸ hsize)]
  exact except_map_mapM_eq_ok_iff.2 hsymbols

/-! ## Positions -/

/-- The position of a tuple in memory counts the strings before it. -/
theorem at?_inMemory {m : InMemoryTuples} {i : Nat} {q : UInt64} (hq : q.toNat = i * m.arity.toNat)
    (hi : i < (inMemory m).length) : (inMemory m).toList[i]? = some ((inMemory m).at? q) := by
  rw [length] at hi
  have hin : m.InRange q := by
    rw [InMemoryTuples.InRange, hq]
    exact m.lt_length_iff.1 hi
  rw [toList, List.getElem?_map, m.getElem?_toList, if_pos hi, at?, m.get?_of_inRange hin, hq]
  rfl

/-- The position of a stored tuple counts the tuples before it. -/
theorem at?_stored {s : StoredTuples} {p : UInt64} (hp : p.toNat < (stored s).length) :
    (stored s).toList[p.toNat]? = some ((stored s).at? p) := by
  rw [length] at hp
  rw [toList, s.getElem?_toList, if_pos hp]
  rfl

/-! ## Agreement -/

/-- **The two representations agree.** Take tuples of one arity and offsets that lead to their strings in some buffer
of symbols, whichever symbols these share. The flat list of the strings is accepted, and so is the payload of the
offsets with bytes after it that are too few for another tuple. Both list the given tuples, with the same arity, the
same number of tuples and the same answer to whether there are any. The tuple with a number is the same wherever it
is asked for: at that position of the stored tuples, at that many widths of those in memory, and as that item of
either list. A flat list is in memory, so it has fewer than `2 ^ 64` strings. -/
theorem representations_agree {arity : UInt64} {tuples : List (List String)} {offsets : List (List UInt32)}
    {symbols rest : Bytes} (hpos : 0 < arity.toNat) (hfits : 4 * arity.toNat < 2 ^ 64)
    (hwidth : ∀ x ∈ tuples, x.length = arity.toNat) (hsize : tuples.flatten.length < 2 ^ 64)
    (hsymbols : offsets.map (List.map (Symbol.text symbols)) = tuples.map (List.map .ok))
    (hrest : rest.length < 4 * arity.toNat) :
    ∃ m s, InMemoryTuples.ofStrings tuples.flatten arity = .ok m ∧
      StoredTuples.ofPayload arity (StoredTuples.payloadOf offsets ++ rest) symbols = .ok s ∧
      Lists (inMemory m) arity tuples ∧ Lists (stored s) arity tuples ∧
      (m.isEmpty = tuples.isEmpty ∧ s.isEmpty = tuples.isEmpty) ∧
      ∀ i (hi : i < tuples.length),
        (stored s).at? (UInt64.ofNat i) = .ok tuples[i] ∧
          (inMemory m).at? (UInt64.ofNat (i * arity.toNat)) = .ok tuples[i] ∧
          (stored s).toList[i]? = some (.ok tuples[i]) ∧
          (inMemory m).toList[i]? = some (.ok tuples[i]) := by
  have hflat : tuples.flatten.length = tuples.length * arity.toNat := length_flatten_of_length hwidth
  have hcount : tuples.length < 2 ^ 64 := by
    have hle : tuples.length ≤ tuples.flatten.length := hflat ▸ Nat.le_mul_of_pos_right _ hpos
    omega
  have hwhole : arity.toNat ∣ tuples.flatten.length := hflat ▸ Nat.dvd_mul_left _ _
  let m : InMemoryTuples := ⟨arity, tuples.flatten, hpos, hwhole⟩
  let s : StoredTuples := ⟨arity, StoredTuples.payloadOf offsets ++ rest, symbols, hpos, hfits⟩
  have hm : Lists (inMemory m) arity tuples := lists_inMemory rfl hwidth
  have hs : Lists (stored s) arity tuples := lists_stored rfl hsymbols hwidth hrest hcount
  refine ⟨m, s, dif_pos ⟨hpos, hwhole⟩, dif_pos ⟨hpos, hfits⟩, hm, hs, ?_, ?_⟩
  · exact ⟨m.isEmpty_eq.trans hm.isEmpty_eq, hs.isEmpty_eq⟩
  · intro i hi
    have hitem := hm.getElem?_toList hi
    have hitem' := hs.getElem?_toList hi
    have hstrings : i * arity.toNat ≤ tuples.length * arity.toNat :=
      Nat.mul_le_mul_right _ (Nat.le_of_lt hi)
    have hp : (UInt64.ofNat i).toNat = i := UInt64.toNat_ofNat_of_lt' (Nat.lt_trans hi hcount)
    have hq : (UInt64.ofNat (i * arity.toNat)).toNat = i * arity.toNat :=
      UInt64.toNat_ofNat_of_lt' (Nat.lt_of_le_of_lt (hflat ▸ hstrings) hsize)
    have hstored := at?_stored (s := s) (p := UInt64.ofNat i) (by rw [hp, hs.length_eq]; exact hi)
    have hmemory := at?_inMemory (m := m) hq (by rw [hm.length_eq]; exact hi)
    rw [hp, hitem'] at hstored
    rw [hitem] at hmemory
    exact ⟨(Option.some.inj hstored).symm, (Option.some.inj hmemory).symm, hitem', hitem⟩

/-- Pairs that share a symbol within a pair and across them, with bytes after the second that make no third. -/
theorem representations_agree_shared :
    ∃ m s, InMemoryTuples.ofStrings ["a", "a", "b", "a"] 2 = .ok m ∧
      StoredTuples.ofPayload 2 [0, 0, 0, 0, 0, 0, 0, 0, 0, 0, 0, 2, 0, 0, 0, 0, 0, 0, 0, 2, 0, 0, 0]
        [1, 97, 1, 98] = .ok s ∧
      (inMemory m).at? 2 = .ok ["b", "a"] ∧ (stored s).at? 1 = .ok ["b", "a"] ∧
      (inMemory m).toList = (stored s).toList ∧ m.isEmpty = false ∧ s.isEmpty = false := by
  have hall := @representations_agree 2 [["a", "a"], ["b", "a"]] [[0, 0], [2, 0]] [1, 97, 1, 98]
    [0, 0, 0, 2, 0, 0, 0] (by decide) (by decide) (by decide) (by decide) (by decide +kernel) (by decide)
  obtain ⟨m, s, hm, hs, hlists, hlists', hempty, hat⟩ := hall
  obtain ⟨hstored, hmemory, -⟩ := hat 1 (by decide)
  exact ⟨m, s, hm, hs, hmemory, hstored, hlists.toList_eq.trans hlists'.toList_eq.symm, hempty⟩

end SeriesBlock.Tuples
