import Mathlib.Data.List.Dedup
import SeriesBlock.OffsetMap
import SeriesBlock.Proofs.Failures
import SeriesBlock.Proofs.Numbers

/-!
# Maps and their payloads

`OffsetMap.readEntries` takes entry after entry off a payload (`readEntries_of_ne`), so the entries
that were written are read back in order (`readEntries_payload`). In the map of a run of entries a key
leads to the offset of its last entry (`get?_ofList`). The map of entries with different keys holds just
these (`entries_ofList`), and each key leads to its own offset (`get?_of_mem`). A map has as many keys
as there are different keys in its entries (`size_ofList`).
-/

set_option autoImplicit false

namespace SeriesBlock.OffsetMap

open Decoder

theorem readEntries_nil : readEntries [] = .ok [] := by
  rw [readEntries, if_pos rfl]

/-- A payload that is not used up starts with an entry. -/
theorem readEntries_of_ne {b : Bytes} (h : b ≠ []) :
    readEntries b = entry.step b >>= fun p => readEntries p.2 >>= fun es => .ok (p.1 :: es) := by
  rw [readEntries, if_neg h]
  split
  · next e rest he =>
    rw [step_of_run_error he]
    rfl
  · next e rest he =>
    rw [step_eq_ok.2 he]
    show _ = readEntries rest >>= fun es => .ok (e :: es)
    cases readEntries rest with
    | error e' => rfl
    | ok es => rfl

theorem failsOnly_entry : FailsOnly (· = .invalidSize) entry := by
  refine failsOnly_bind failsOnly_uvarint fun length => ?_
  refine failsOnly_bind (failsOnly_take length.toNat) fun _ => ?_
  exact failsOnly_bind failsOnly_uvarint32 fun _ => failsOnly_pure _

/-- Reading entries fails in one way only. -/
theorem eq_invalidSize_of_readEntries {b : Bytes} {e : BlockError}
    (h : readEntries b = .error e) : e = .invalidSize := by
  induction hn : b.length using Nat.strongRecOn generalizing b with
  | ind n ih =>
      by_cases hb : b = []
      · rw [hb, readEntries_nil] at h
        cases h
      · rw [readEntries_of_ne hb] at h
        rcases except_bind_eq_error.1 h with hstep | ⟨⟨first, rest⟩, hstep, h⟩
        · exact failsOnly_entry.of_step hstep
        · have hlt := entry_length (step_eq_ok.1 hstep)
          rcases except_bind_eq_error.1 h with hrest | ⟨es, -, h⟩
          · exact ih _ (hn ▸ hlt) hrest rfl
          · cases h

theorem eq_invalidSize_of_ofPayload {payload : Bytes} {e : BlockError}
    (h : ofPayload payload = .error e) : e = .invalidSize := by
  rw [ofPayload] at h
  cases hr : readEntries payload with
  | ok entries =>
      rw [hr] at h
      cases h
  | error e' =>
      rw [hr] at h
      cases h
      exact eq_invalidSize_of_readEntries hr

/-! ## Written entries -/

/-- The payload of a run of entries. -/
def payload (entries : List (Bytes × UInt32)) : Bytes :=
  entries.flatMap fun e => writeEntry e.1 e.2

theorem length_writeEntry_pos (key : Bytes) (offset : UInt32) :
    0 < (writeEntry key offset).length := by
  have h := Varint.length_encodeNat_pos key.length
  simp only [writeEntry, List.length_append]
  omega

theorem length_key_le_writeEntry (key : Bytes) (offset : UInt32) :
    key.length ≤ (writeEntry key offset).length := by
  simp only [writeEntry, List.length_append]
  omega

/-- No key is longer than the payload of all entries. -/
theorem length_key_le_payload {entries : List (Bytes × UInt32)} {e : Bytes × UInt32}
    (he : e ∈ entries) : e.1.length ≤ (payload entries).length := by
  obtain ⟨before, after, rfl⟩ := List.append_of_mem he
  have hkey := length_key_le_writeEntry e.1 e.2
  rw [payload, List.flatMap_append, List.flatMap_cons, List.length_append, List.length_append]
  omega

theorem run_entry_writeEntry {key : Bytes} (h : key.length < 2 ^ 64) (offset : UInt32)
    (s : Bytes) : entry.run (writeEntry key offset ++ s) = (.ok (key, offset), s) := by
  have hn : (UInt64.ofNat key.length).toNat = key.length := UInt64.toNat_ofNat_of_lt' h
  rw [writeEntry, List.append_assoc, List.append_assoc]
  refine run_bind_eq_ok.2 ⟨_, _, run_uvarint_encodeNat h _, ?_⟩
  refine run_bind_eq_ok.2 ⟨key, _, run_take_eq_ok.2 ⟨rfl, hn.symm⟩, ?_⟩
  exact run_bind_eq_ok.2 ⟨offset, s, run_uvarint32_encodeNat offset s, rfl⟩

/-- **Written entries are read back in order.** -/
theorem readEntries_payload {entries : List (Bytes × UInt32)}
    (h : ∀ e ∈ entries, e.1.length < 2 ^ 64) : readEntries (payload entries) = .ok entries := by
  induction entries with
  | nil => exact readEntries_nil
  | cons e entries ih =>
      obtain ⟨key, offset⟩ := e
      have hne : payload ((key, offset) :: entries) ≠ [] := by
        intro h0
        have hpos := length_writeEntry_pos key offset
        have hlen := congrArg List.length h0
        rw [payload, List.flatMap_cons, List.length_append] at hlen
        exact absurd hlen (by
          show ¬ (writeEntry key offset).length + _ = 0
          omega)
      have hrun : entry.step (payload ((key, offset) :: entries)) =
          .ok ((key, offset), payload entries) :=
        step_eq_ok.2 (run_entry_writeEntry (h _ List.mem_cons_self) offset _)
      rw [readEntries_of_ne hne, hrun]
      show readEntries (payload entries) >>= _ = _
      rw [ih fun e he => h e (List.mem_cons_of_mem _ he)]
      rfl

/-! ## The map of a run of entries -/

theorem lookup_put (key k : Bytes) (offset : UInt32) (entries : List (Bytes × UInt32)) :
    (put k offset entries).lookup key = if key = k then some offset else entries.lookup key := by
  induction entries with
  | nil =>
      by_cases hk : key = k
      · simp [put, hk]
      · simp [put, hk, List.lookup_cons, beq_false_of_ne hk]
  | cons e entries ih =>
      obtain ⟨k', o⟩ := e
      rw [put]
      by_cases hk : k' = k
      · subst hk
        rw [if_pos rfl]
        by_cases hkey : key = k'
        · simp [hkey]
        · simp [hkey, List.lookup_cons, beq_false_of_ne hkey]
      · rw [if_neg hk, List.lookup_cons, List.lookup_cons, ih]
        by_cases hkey : key = k'
        · simp [hkey, hk]
        · rw [beq_false_of_ne hkey]

theorem get?_insert (m : OffsetMap) (key k : Bytes) (offset : UInt32) :
    (m.insert k offset).get? key = if key = k then some offset else m.get? key :=
  lookup_put key k offset m.entries

/-- A later entry of a key replaces an earlier one, and entries replace what the map had. -/
theorem get?_foldl_insert (m : OffsetMap) (entries : List (Bytes × UInt32)) (key : Bytes) :
    (entries.foldl (fun m e => m.insert e.1 e.2) m).get? key =
      (entries.reverse.lookup key).or (m.get? key) := by
  induction entries generalizing m with
  | nil => rfl
  | cons e entries ih =>
      obtain ⟨k, offset⟩ := e
      rw [List.foldl_cons, ih, get?_insert, List.reverse_cons, List.lookup_append, Option.or_assoc]
      congr 1
      by_cases hk : key = k
      · simp [hk]
      · simp [hk, List.lookup_cons, beq_false_of_ne hk]

/-- **A key leads to the offset of its last entry.** -/
theorem get?_ofList (entries : List (Bytes × UInt32)) (key : Bytes) :
    (ofList entries).get? key = entries.reverse.lookup key :=
  (get?_foldl_insert empty entries key).trans (Option.or_none)

/-- A key that is new goes to the end. -/
theorem put_of_not_mem {key : Bytes} {offset : UInt32} {entries : List (Bytes × UInt32)}
    (h : key ∉ entries.map Prod.fst) : put key offset entries = entries ++ [(key, offset)] := by
  induction entries with
  | nil => rfl
  | cons e entries ih =>
      obtain ⟨k, o⟩ := e
      rw [List.map_cons, List.mem_cons, not_or] at h
      rw [put, if_neg (fun hk => h.1 hk.symm), ih h.2]
      rfl

/-- Inserting new keys, all different, puts their entries at the end. -/
theorem entries_foldl_insert {m : OffsetMap} {entries : List (Bytes × UInt32)}
    (h : ((m.entries ++ entries).map Prod.fst).Nodup) :
    (entries.foldl (fun m e => m.insert e.1 e.2) m).entries = m.entries ++ entries := by
  induction entries generalizing m with
  | nil => exact (List.append_nil _).symm
  | cons e entries ih =>
      obtain ⟨key, offset⟩ := e
      have hnew : key ∉ m.entries.map Prod.fst := by
        intro hk
        rw [List.map_append, List.nodup_append] at h
        exact h.2.2 key hk key List.mem_cons_self rfl
      -- a new key goes to the end
      have hput : (m.insert key offset).entries = m.entries ++ [(key, offset)] :=
        put_of_not_mem hnew
      rw [List.foldl_cons, ih (by rwa [hput, List.append_assoc]), hput, List.append_assoc]
      rfl

theorem entries_ofList {entries : List (Bytes × UInt32)}
    (h : (entries.map Prod.fst).Nodup) : (ofList entries).entries = entries :=
  entries_foldl_insert (m := empty) h

/-- **Each key of a map leads to its own offset.** -/
theorem get?_of_mem {m : OffsetMap} {key : Bytes} {offset : UInt32}
    (h : (key, offset) ∈ m.entries) : m.get? key = some offset := by
  obtain ⟨entries, hnodup⟩ := m
  show entries.lookup key = some offset
  replace h : (key, offset) ∈ entries := h
  induction entries with
  | nil => cases h
  | cons e entries ih =>
      obtain ⟨k, o⟩ := e
      rw [List.map_cons, List.nodup_cons] at hnodup
      rcases List.mem_cons.1 h with he | he
      · cases he
        exact List.lookup_cons_self
      -- no earlier entry has the key
      · have hk : key ≠ k := by
          intro hk
          rw [← hk] at hnodup
          exact hnodup.1 (List.mem_map.2 ⟨_, he, rfl⟩)
        rw [List.lookup_cons, beq_false_of_ne hk]
        exact ih hnodup.2 he

/-! ## Keys -/

/-- A key leads nowhere exactly if the map does not have it. -/
theorem get?_eq_none_iff {m : OffsetMap} {key : Bytes} : m.get? key = none ↔ key ∉ m.keys := by
  rw [get?, List.lookup_eq_none_iff, keys, List.mem_map]
  constructor
  · rintro h ⟨e, he, rfl⟩
    exact bne_iff_ne.1 (h e he) rfl
  · intro h e he
    exact bne_iff_ne.2 fun hkey => h ⟨e, he, hkey.symm⟩

/-- **The order of its keys does not change where they lead.** -/
theorem get?_of_perm {m m' : OffsetMap} (h : m.entries.Perm m'.entries) (key : Bytes) :
    m.get? key = m'.get? key := by
  by_cases hkey : key ∈ m.keys
  · obtain ⟨e, he, rfl⟩ := List.mem_map.1 hkey
    rw [get?_of_mem he, get?_of_mem (h.mem_iff.1 he)]
  · have hkey' : key ∉ m'.keys := fun hmem => hkey ((h.map Prod.fst).mem_iff.2 hmem)
    rw [get?_eq_none_iff.2 hkey, get?_eq_none_iff.2 hkey']

theorem mem_keys_ofList {entries : List (Bytes × UInt32)} {key : Bytes} :
    key ∈ (ofList entries).keys ↔ key ∈ entries.map Prod.fst := by
  apply not_iff_not.1
  rw [← get?_eq_none_iff, get?_ofList, List.lookup_eq_none_iff, List.mem_map]
  constructor
  · rintro h ⟨e, he, rfl⟩
    exact bne_iff_ne.1 (h e (List.mem_reverse.2 he)) rfl
  · intro h e he
    exact bne_iff_ne.2 fun hkey => h ⟨e, List.mem_reverse.1 he, hkey.symm⟩

/-- **The size of a map** is the number of different keys in its entries. -/
theorem size_ofList (entries : List (Bytes × UInt32)) :
    (ofList entries).size = (entries.map Prod.fst).dedup.length := by
  have hperm : (ofList entries).keys.Perm (entries.map Prod.fst).dedup := by
    refine (List.perm_ext_iff_of_nodup (ofList entries).nodup (List.nodup_dedup _)).2 fun key => ?_
    rw [List.mem_dedup]
    exact mem_keys_ofList
  rw [← hperm.length_eq, keys, List.length_map]
  rfl

end SeriesBlock.OffsetMap
