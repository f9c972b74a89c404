import SeriesBlock.Proofs.Keys
import SeriesBlock.Proofs.Maps
import SeriesBlock.Proofs.Numbers
import SeriesBlock.Proofs.Opening
import SeriesBlock.Proofs.Record
import SeriesBlock.Proofs.Tuples.Offsets

/-!
# What was written is read back

One lemma for each kind of region of an index buffer: symbols (`Symbol.text_write`), sections
(`readSection_write`), maps (`readMap_of_framed`), references (`refsOf_flatMap`), the figures of a block
(`ofPayload_toPayload`), tuples (`toList_written`) and the records of series (`run_record_write`).
Strings are written as the offsets of their symbols, so the last two ask that these offsets resolve in
the buffer.
-/

set_option autoImplicit false

namespace SeriesBlock

open Bytes Decoder Varint

/-! ## Symbols -/

namespace Symbol

theorem run_stored_write {w : Bytes} (h : w.length < 2 ^ 64) (s : Bytes) :
    stored.run (write w ++ s) = (.ok w, s) := by
  have hn : (UInt64.ofNat w.length).toNat = w.length := UInt64.toNat_ofNat_of_lt' h
  rw [write, List.append_assoc]
  exact run_bind_eq_ok.2 ⟨_, _, run_uvarint_encodeNat h _, run_take_eq_ok.2 ⟨rfl, hn.symm⟩⟩

theorem lookup_write {pre post w : Bytes} {offset : UInt32} (hp : pre.length = offset.toNat)
    (h : w.length < 2 ^ 64) : lookup (pre ++ (write w ++ post)) offset = .ok w := by
  have hread : (pre ++ (write w ++ post)).tailFrom offset.toNat >>= stored.eval = .ok w := by
    rw [tailFrom_append hp]
    exact eval_of_run (run_stored_write h post)
  rw [lookup, hread]

/-- **A written symbol is read back** at its offset. -/
theorem text_write {pre post : Bytes} {s : String} {offset : UInt32}
    (hp : pre.length = offset.toNat) (h : (Utf8.encode s).length < 2 ^ 64) :
    text (pre ++ (write (Utf8.encode s) ++ post)) offset = .ok s := by
  refine except_bind_eq_ok.2 ⟨Utf8.encode s, lookup_write hp h, ?_⟩
  rw [Utf8.decode_encode]

end Symbol

/-! ## Sections -/

namespace Index

/-- **A written section is read back** at its offset, with its checksum verified or not. -/
theorem readSection_write (options : ReaderOptions) {pre post payload : Bytes} {flag : UInt8}
    {offset : UInt32} (hp : pre.length = offset.toNat) (h : payload.length < 2 ^ 32) :
    readSection options (pre ++ (Section.write flag payload ++ post)) offset =
      ⟨.ok ⟨offset, flag, payload, Checksum.ofSection flag payload⟩, []⟩ := by
  have hread := Section.read_write flag post hp h
  have hverify : Section.verify ⟨offset, flag, payload, Checksum.ofSection flag payload⟩ =
      .ok () := Section.verify_eq_ok.2 rfl
  rw [readSection, hread]
  cases hv : options.verifyChecksums with
  | false => rfl
  | true => simp only [hverify, if_true]

/-- The frame of a payload, at an offset of a buffer. -/
def Framed (b : Bytes) (offset : UInt32) (payload : Bytes) : Prop :=
  ∃ pre post, b = pre ++ (Section.write Section.standardFlag payload ++ post) ∧
    pre.length = offset.toNat ∧ payload.length < 2 ^ 32

theorem framed_append {pre post payload : Bytes} {offset : UInt32} (hp : pre.length = offset.toNat)
    (h : (pre ++ (Section.write Section.standardFlag payload ++ post)).length < 2 ^ 32) :
    Framed (pre ++ (Section.write Section.standardFlag payload ++ post)) offset payload := by
  refine ⟨pre, post, rfl, hp, ?_⟩
  rw [Section.write_eq_stored offset, List.length_append, List.length_append,
    Section.length_stored] at h
  show payload.length < 2 ^ 32
  have h' : pre.length + (payload.length + 9 + post.length) < 2 ^ 32 := h
  omega

/-- A framed payload is read without a report, whatever the options. -/
theorem readSection_of_framed (options : ReaderOptions) {b : Bytes} {offset : UInt32}
    {payload : Bytes} (h : Framed b offset payload) :
    ∃ s, readSection options b offset = ⟨.ok s, []⟩ ∧ s.standardPayload = .ok payload := by
  obtain ⟨pre, post, rfl, hp, hl⟩ := h
  exact ⟨_, readSection_write options hp hl, rfl⟩

/-! ## Maps -/

/-- The keys of framed entries are as short as their payload. -/
theorem length_key_lt_of_framed {b : Bytes} {offset : UInt32} {entries : List (Bytes × UInt32)}
    (h : Framed b offset (OffsetMap.payload entries)) {e : Bytes × UInt32}
    (he : e ∈ entries) : e.1.length < 2 ^ 32 := by
  obtain ⟨pre, post, -, -, hlen⟩ := h
  exact Nat.lt_of_le_of_lt (OffsetMap.length_key_le_payload he) hlen

/-- A framed run of entries is read as their map. -/
theorem readMap_of_framed (options : ReaderOptions) {b : Bytes} {offset : UInt32}
    {entries : List (Bytes × UInt32)} (h : Framed b offset (OffsetMap.payload entries)) :
    (readMap options b offset).result = .ok (OffsetMap.ofList entries) := by
  have hread : OffsetMap.readEntries (OffsetMap.payload entries) = .ok entries := by
    refine OffsetMap.readEntries_payload ?_
    intro e he
    exact Nat.lt_trans (length_key_lt_of_framed h he) (by decide)
  obtain ⟨s, hs, hpayload⟩ := readSection_of_framed options h
  rw [readMap, Recorded.result_bind, hs]
  show OffsetMap.ofSection s = _
  rw [OffsetMap.ofSection, hpayload]
  show OffsetMap.ofPayload (OffsetMap.payload entries) = _
  rw [OffsetMap.ofPayload, hread]
  rfl

/-! ## References -/

theorem wordsOf_flatMap (refs : List UInt32) : wordsOf (refs.flatMap ofWord32) = refs := by
  induction refs with
  | nil => rfl
  | cons r refs ih =>
      rw [List.flatMap_cons]
      match hr : ofWord32 r, length_ofWord32 r with
      | [a, b, c, d], _ =>
          show UInt32.ofNat (toNat [a, b, c, d]) :: wordsOf (refs.flatMap ofWord32) = _
          rw [ih, ← hr, ofNat_toNat_ofWord32]

theorem refsOf_flatMap (refs : List SeriesRef) : refsOf (refs.flatMap ofWord32) = .ok refs := by
  have hlen : (refs.flatMap ofWord32).length = refs.length * 4 :=
    length_flatMap_of_length fun r _ => length_ofWord32 r
  rw [refsOf, if_pos (by omega), wordsOf_flatMap]

/-- **Framed references are read back** where the key of their label leads to them. -/
theorem result_postings_of_framed {i : Index} {name value : String} {offset : UInt32} {refs : List SeriesRef}
    (hkey : i.postingsMap.get? (keyOf [name, value]) = some offset)
    (h : Framed i.buffer offset (refs.flatMap ofWord32)) :
    (i.postings name value).result = .ok (Postings.ofList refs) := by
  obtain ⟨s, hs, hpayload⟩ := readSection_of_framed i.options h
  rw [postings, Recorded.result_countCorruption, hkey]
  show (readSection i.options i.buffer offset >>= _).result = _
  rw [Recorded.result_bind, hs]
  show (Recorded.ofExcept (s.standardPayload >>= refsOf) >>= _).result = _
  rw [hpayload]
  show (Recorded.ofExcept (refsOf (refs.flatMap ofWord32)) >>= _).result = _
  rw [refsOf_flatMap]
  rfl

end Index

/-! ## Figures -/

namespace BlockStats

theorem length_toPayload (s : BlockStats) : s.toPayload.length = payloadLength := by
  simp [toPayload, payloadLength]

/-- **The figures of a block are read back.** -/
theorem ofPayload_toPayload (s : BlockStats) : ofPayload s.toPayload = .ok s := by
  obtain ⟨minTime, maxTime, seriesCount, chunkCount, sampleCount⟩ := s
  rw [ofPayload, if_pos (length_toPayload _)]
  refine eval_eq_ok.2 ⟨List.replicate 32 0, ?_⟩
  refine run_bind_eq_ok.2 ⟨minTime.toUInt64, ofWord64 maxTime.toUInt64 ++ (ofWord32 seriesCount ++
    (ofWord32 chunkCount ++ (ofWord64 sampleCount ++ List.replicate 32 0))),
    run_word64_eq_ok.2 (by simp [toPayload]), ?_⟩
  refine run_bind_eq_ok.2 ⟨maxTime.toUInt64, _, run_word64_eq_ok.2 rfl, ?_⟩
  refine run_bind_eq_ok.2 ⟨seriesCount, _, run_word32_eq_ok.2 rfl, ?_⟩
  refine run_bind_eq_ok.2 ⟨chunkCount, _, run_word32_eq_ok.2 rfl, ?_⟩
  refine run_bind_eq_ok.2 ⟨sampleCount, _, run_word64_eq_ok.2 rfl, ?_⟩
  rw [Int64.toInt64_toUInt64, Int64.toInt64_toUInt64]
  rfl

end BlockStats

/-! ## Tuples -/

namespace StoredTuples

variable {symbols : Bytes} {place : String → UInt32}

/-- Tuples of strings as the offsets of their symbols. -/
def written (place : String → UInt32) (tuples : List (List String)) : Bytes :=
  tuples.flatMap fun t => t.flatMap fun s => ofWord32 (place s)

/-- **Written tuples are read back in order**, if all of them have the arity and their strings
resolve. -/
theorem toList_written {t : StoredTuples} {tuples : List (List String)}
    (hp : t.payload = written place tuples) (hw : ∀ x ∈ tuples, x.length = t.arity.toNat)
    (hr : ∀ x ∈ tuples, ∀ s ∈ x, Symbol.text t.symbols (place s) = .ok s)
    (hn : tuples.length < 2 ^ 64) : t.toList = tuples.map .ok := by
  have hp' : t.payload = payloadOf (tuples.map (List.map place)) ++ [] := by
    rw [hp, written, List.append_nil, payloadOf, List.flatMap_map]
    simp only [List.flatMap_map]
  have hwidth : ∀ o ∈ tuples.map (List.map place), o.length = t.arity.toNat := by
    rintro _ ho
    obtain ⟨x, hx, rfl⟩ := List.mem_map.1 ho
    rw [List.length_map, hw x hx]
  rw [toList_of_offsets hp' hwidth t.width_pos (by rwa [List.length_map]), List.map_map]
  refine List.map_congr_left fun x hx => ?_
  rw [Function.comp_apply, List.mapM_map]
  exact except_mapM_eq_ok_iff.2 (List.map_congr_left (hr x hx))

end StoredTuples

/-- **The payload of a label index is read back** as its tuples. -/
theorem Index.tuplesOf_written (symbols : Bytes) {place : String → UInt32} {arity : Nat}
    {tuples : List (List String)} (hpos : 0 < arity) (hfits : 4 * arity < 2 ^ 64)
    (hw : ∀ x ∈ tuples, x.length = arity)
    (hr : ∀ x ∈ tuples, ∀ s ∈ x, Symbol.text symbols (place s) = .ok s)
    (hsize : (StoredTuples.written place tuples).length < 2 ^ 64) :
    ∃ t, tuplesOf symbols (encodeNat arity ++ StoredTuples.written place tuples) =
      .ok (.stored t) ∧ t.toList = tuples.map .ok := by
  have ha : (UInt64.ofNat arity).toNat = arity := UInt64.toNat_ofNat_of_lt' (by
    show arity < 2 ^ 64
    omega)
  have hcond : 0 < (UInt64.ofNat arity).toNat ∧
      4 * (UInt64.ofNat arity).toNat < UInt64.size := by
    rw [ha]
    exact ⟨hpos, hfits⟩
  have hlen : (StoredTuples.written place tuples).length = tuples.length * (arity * 4) := by
    refine length_flatMap_of_length ?_
    intro x hx
    rw [length_flatMap_of_length fun s _ => length_ofWord32 (place s), hw x hx]
  -- a tuple takes at least one byte
  have hn : tuples.length ≤ (StoredTuples.written place tuples).length := by
    rw [hlen]
    exact Nat.le_mul_of_pos_right _ (by omega)
  refine ⟨⟨UInt64.ofNat arity, StoredTuples.written place tuples, symbols, hcond.1, hcond.2⟩,
    ?_, ?_⟩
  · rw [tuplesOf, run_uvarint_encodeNat (by omega)]
    show (StoredTuples.ofPayload _ _ _).map Tuples.stored = _
    rw [StoredTuples.ofPayload, dif_pos hcond]
    rfl
  · refine StoredTuples.toList_written rfl ?_ hr (by omega)
    intro x hx
    rw [hw x hx]
    exact ha.symm

/-! ## Records -/

/-- A chunk's entry in a record. -/
def ChunkMeta.write (m : ChunkMeta) : Bytes :=
  encodeSigned m.minTime ++ (encodeSigned m.maxTime ++ encodeNat m.ref.toNat)

/-- A label in a record, by the offsets of its symbols. -/
def Label.write (place : String → UInt32) (l : Label) : Bytes :=
  encodeNat (place l.name).toNat ++ encodeNat (place l.value).toNat

namespace Series

variable {symbols : Bytes} {place : String → UInt32}

/-- The record of a series. -/
def write (place : String → UInt32) (labels : List Label) (chunks : List ChunkMeta) : Bytes :=
  encodeNat (2 * labels.length) ++ (labels.flatMap (Label.write place) ++
    (encodeNat chunks.length ++ chunks.flatMap ChunkMeta.write))

theorem run_readLabels_write {labels : List Label}
    (h : ∀ l ∈ labels, Symbol.text symbols (place l.name) = .ok l.name ∧
      Symbol.text symbols (place l.value) = .ok l.value) (rest : Bytes) :
    (readLabels symbols labels.length).run (labels.flatMap (Label.write place) ++ rest) =
      (.ok labels, rest) := by
  induction labels with
  | nil => rfl
  | cons l labels ih =>
      obtain ⟨hname, hvalue⟩ := h l List.mem_cons_self
      rw [List.flatMap_cons, Label.write, List.append_assoc, List.append_assoc]
      refine run_bind_eq_ok.2 ⟨place l.name, _, run_uvarint32_encodeNat _ _, ?_⟩
      refine run_bind_eq_ok.2 ⟨place l.value, _, run_uvarint32_encodeNat _ _, ?_⟩
      refine run_bind_eq_ok.2 ⟨l.name, _, run_ofExcept_eq_ok.2 ⟨hname, rfl⟩, ?_⟩
      refine run_bind_eq_ok.2 ⟨l.value, _, run_ofExcept_eq_ok.2 ⟨hvalue, rfl⟩, ?_⟩
      exact run_bind_eq_ok.2
        ⟨labels, rest, ih fun x hx => h x (List.mem_cons_of_mem l hx), rfl⟩

theorem run_entries_write (chunks : List ChunkMeta) (rest : Bytes) :
    (entries chunks.length).run (chunks.flatMap ChunkMeta.write ++ rest) = (.ok chunks, rest) := by
  induction chunks with
  | nil => rfl
  | cons m chunks ih =>
      rw [List.flatMap_cons, ChunkMeta.write, List.append_assoc, List.append_assoc,
        List.append_assoc]
      exact run_entries_succ.2 ⟨m.minTime, _, run_varint_encodeSigned _ _, m.maxTime, _,
        run_varint_encodeSigned _ _, m.ref, _, run_uvarint32_encodeNat _ _, chunks, ih, rfl⟩

theorem run_wholeRecord_write {labels : List Label} {chunks : List ChunkMeta}
    (h : ∀ l ∈ labels, Symbol.text symbols (place l.name) = .ok l.name ∧
      Symbol.text symbols (place l.value) = .ok l.value)
    (hsize : (write place labels chunks).length < 2 ^ 64) (rest : Bytes) :
    (wholeRecord symbols).run (write place labels chunks ++ rest) =
      (.ok (labels, chunks), rest) := by
  -- what the readers use bounds the numbers of labels and chunks by the size of the record
  have hlabels := uses_readLabels symbols labels.length (run_readLabels_write h [])
  have hchunks := uses_entries chunks.length (run_entries_write chunks [])
  simp only [List.append_nil, List.length_nil, Nat.zero_add] at hlabels hchunks
  simp only [write, List.length_append] at hsize
  have hl : 2 * labels.length < 2 ^ 64 := by omega
  have hc : chunks.length < 2 ^ 64 := by omega
  have hln : (UInt64.ofNat (2 * labels.length)).toNat = 2 * labels.length :=
    UInt64.toNat_ofNat_of_lt' hl
  have hcn : (UInt64.ofNat chunks.length).toNat = chunks.length := UInt64.toNat_ofNat_of_lt' hc
  have hhalf : 2 * labels.length / 2 = labels.length := by omega
  rw [write, List.append_assoc, List.append_assoc, List.append_assoc]
  refine run_bind_eq_ok.2 ⟨_, _, run_uvarint_encodeNat hl _, ?_⟩
  rw [hln, if_neg (by omega), hhalf]
  refine run_bind_eq_ok.2 ⟨labels, _, run_readLabels_write h _, ?_⟩
  refine run_bind_eq_ok.2 ⟨_, _, run_uvarint_encodeNat hc _, ?_⟩
  rw [hcn]
  exact run_bind_eq_ok.2 ⟨chunks, rest, run_entries_write chunks rest, rfl⟩

/-- Entries that can be read are all kept for the range of all times. -/
theorem run_readChunks_of_entries {n : Nat} {b rest : Bytes} {cs : List ChunkMeta}
    (h : (entries n).run b = (.ok cs, rest)) :
    (readChunks Int64.minValue Int64.maxValue n).run b = (.ok (cs, 0), rest) := by
  induction n generalizing b cs with
  | zero =>
      cases h
      rfl
  | succ n ih =>
      obtain ⟨first, b₁, h₁, last, b₂, h₂, ref, b₃, h₃, more, h₄, rfl⟩ := run_entries_succ.1 h
      refine run_bind_eq_ok.2 ⟨first, b₁, h₁, ?_⟩
      rw [if_neg (Int64.not_lt.2 (Int64.le_maxValue first))]
      refine run_bind_eq_ok.2 ⟨last, b₂, h₂, ?_⟩
      refine run_bind_eq_ok.2 ⟨ref, b₃, h₃, ?_⟩
      refine run_bind_eq_ok.2 ⟨(more, 0), rest, ih h₄, ?_⟩
      show (if last < Int64.minValue then _ else _ : Decoder _).run rest = _
      rw [if_neg (Int64.not_lt.2 (Int64.minValue_le last))]
      rfl

/-- **A written record is read back** for the range of all times. -/
theorem run_record_write {labels : List Label} {chunks : List ChunkMeta}
    (h : ∀ l ∈ labels, Symbol.text symbols (place l.name) = .ok l.name ∧
      Symbol.text symbols (place l.value) = .ok l.value)
    (hsize : (write place labels chunks).length < 2 ^ 64) (rest : Bytes) :
    (record symbols Int64.minValue Int64.maxValue).run (write place labels chunks ++ rest) =
      (.ok (labels, chunks, 0), rest) := by
  obtain ⟨mid, hmid, hrecord⟩ := run_record_of_wholeRecord (run_wholeRecord_write h hsize rest)
  exact hrecord _ _ _ _ _ (run_readChunks_of_entries hmid)

end Series

end SeriesBlock
