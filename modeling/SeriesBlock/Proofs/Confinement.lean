import SeriesBlock.Proofs.Grammar
import SeriesBlock.Proofs.Locality

/-!
# Corruption is confined

What an operation on an opened index looks at. Two index buffers of the same length may differ anywhere but in
the part that an operation reads: the figures are read from their own frame (`stats_of_agreeOn`), postings from
the frame that their key leads to (`postings_of_agreeOn`), and a series from its record, as far as that is read
for the range, and from the symbols that it names (`series_of_agreeOn`). The operation then has the same outcome
and the same journal for both buffers (`corruption_is_confined`). Only the length of a buffer is looked at
besides.
-/

set_option autoImplicit false

namespace SeriesBlock

open Bytes Decoder

variable {b b' : Bytes}

/-- **A section is read from its frame.** -/
theorem Section.read_of_agreeOn (hlen : b'.length = b.length) {offset : UInt32} {s : Section}
    (hagree : b.AgreeOn b' offset.toNat (offset.toNat + s.stored.length))
    (h : Section.read b offset = .ok s) : Section.read b' offset = .ok s := by
  obtain ⟨hoffset, hpayload, pre, post, rfl, hpre⟩ := Section.read_eq_ok_iff.1 h
  rw [List.append_assoc] at hagree hlen
  rw [← hpre] at hagree
  obtain ⟨pre', post', rfl, hpre', -⟩ := hagree.exists_append hlen
  refine Section.read_eq_ok_iff.2 ⟨hoffset, hpayload, pre', post', ?_, hpre'.trans hpre⟩
  rw [List.append_assoc]

namespace Symbol

/-- Where the symbol at an offset ends. -/
def stop (b : Bytes) (offset : UInt32) : Nat :=
  stored.stop b offset.toNat

/-- **A symbol is read from its length and its bytes.** -/
theorem text_of_agreeOn (hlen : b'.length = b.length) {offset : UInt32} {t : String}
    (hagree : b.AgreeOn b' offset.toNat (stop b offset)) (h : text b offset = .ok t) :
    text b' offset = .ok t := by
  obtain ⟨w, hw, ht⟩ := except_bind_eq_ok.1 h
  rw [lookup_eq_ok_iff] at hw
  have hw' := local_stored.eval_of_agreeOn hlen hagree hw
  exact except_bind_eq_ok.2 ⟨w, lookup_eq_ok_iff.2 hw', ht⟩

end Symbol

namespace Series

/-- Where the reading of the record at a reference stops. -/
def recordStop (b : Bytes) (ref : SeriesRef) (mint maxt : Timestamp) : Nat :=
  (record b mint maxt).stop b ref.toNat

/-- The offsets of the symbols that the record at a reference names. -/
def symbolsAt (b : Bytes) (ref : SeriesRef) : List UInt32 :=
  match b.tailFrom ref.toNat >>= namedSymbols.eval with
  | .ok offsets => offsets
  | .error _ => []

/-- **A record is read from its bytes and its symbols.** -/
theorem record_of_agreeOn (hlen : b'.length = b.length) {ref : SeriesRef} {mint maxt : Timestamp}
    {r : List Label × List ChunkMeta × Nat}
    (hagree : b.AgreeOn b' ref.toNat (recordStop b ref mint maxt))
    (hsymbols : ∀ offset ∈ symbolsAt b ref, b.AgreeOn b' offset.toNat (Symbol.stop b offset))
    (h : (b.tailFrom ref.toNat >>= (record b mint maxt).eval) = .ok r) :
    (b'.tailFrom ref.toNat >>= (record b' mint maxt).eval) = .ok r := by
  obtain ⟨tail, htail, heval⟩ := except_bind_eq_ok.1 h
  obtain ⟨rest, hrun⟩ := eval_eq_ok.1 heval
  obtain ⟨offsets, hoffsets, htexts, hsame⟩ := exists_offsets_of_record hrun
  rw [symbolsAt, except_bind_eq_ok.2 ⟨tail, htail, hoffsets⟩] at hsymbols
  -- in its own place the record is read alike with the symbols of the other buffer
  have hrun' : (record b' mint maxt).run tail = (.ok r, rest) := by
    apply hsame b'
    intro offset hmem
    obtain ⟨t, ht⟩ := htexts offset hmem
    rw [ht, Symbol.text_of_agreeOn hlen (hsymbols offset hmem) ht]
  -- and stops where it did, so it is read alike in the other buffer
  have hdrop : b.drop ref.toNat = tail := by
    obtain ⟨pre, hb, hpre⟩ := tailFrom_eq_ok.1 htail
    rw [hb, ← hpre, List.drop_left]
  have hstop : (record b' mint maxt).stop b ref.toNat = recordStop b ref mint maxt := by
    rw [recordStop, stop, stop, hdrop, hrun, hrun']
  apply (local_record b' mint maxt).eval_of_agreeOn hlen
  · rw [hstop]
    exact hagree
  · exact except_bind_eq_ok.2 ⟨tail, htail, eval_of_run hrun'⟩

end Series

namespace Index

variable {i i' : Index}

theorem sectionAt_of_agreeOn (hlen : i'.buffer.length = i.buffer.length) (hoptions : i'.options = i.options)
    {offset : UInt32} {s : Section} (h : Section.read i.buffer offset = .ok s)
    (hagree : i.buffer.AgreeOn i'.buffer offset.toNat (offset.toNat + s.stored.length)) :
    i'.sectionAt offset = i.sectionAt offset := by
  have h' := Section.read_of_agreeOn hlen hagree h
  rw [sectionAt, sectionAt, readSection, readSection, h, h', hoptions]

/-- **The figures are read from their frame.** -/
theorem stats_of_agreeOn (hlen : i'.buffer.length = i.buffer.length) (hoptions : i'.options = i.options)
    {s : Section} (h : Section.read i.buffer BlockStats.offset = .ok s)
    (hagree : i.buffer.AgreeOn i'.buffer BlockStats.offset.toNat
      (BlockStats.offset.toNat + s.stored.length)) : i'.stats = i.stats := by
  rw [stats, stats, sectionAt_of_agreeOn hlen hoptions h hagree]

/-- **Postings are read from the frame that their key leads to**, if there is one. -/
theorem postings_of_agreeOn (hlen : i'.buffer.length = i.buffer.length) (hoptions : i'.options = i.options)
    (hmap : ∀ key, i'.postingsMap.get? key = i.postingsMap.get? key) {name value : String}
    (h : ∀ offset, i.postingsMap.get? (keyOf [name, value]) = some offset →
      ∃ s, Section.read i.buffer offset = .ok s ∧
        i.buffer.AgreeOn i'.buffer offset.toNat (offset.toNat + s.stored.length)) :
    i'.postings name value = i.postings name value := by
  rw [postings, postings, hmap]
  cases hoffset : i.postingsMap.get? (keyOf [name, value]) with
  | none => rfl
  | some offset =>
      obtain ⟨s, hs, hagree⟩ := h offset hoffset
      simp only [sectionAt_of_agreeOn hlen hoptions hs hagree]

/-- **A series is read from its record and its symbols.** -/
theorem series_of_agreeOn (hlen : i'.buffer.length = i.buffer.length) {ref : SeriesRef}
    {mint maxt : Timestamp} {s : SeriesLookup} (h : (i.series ref mint maxt).result = .ok s)
    (hagree : i.buffer.AgreeOn i'.buffer ref.toNat (Series.recordStop i.buffer ref mint maxt))
    (hsymbols : ∀ offset ∈ Series.symbolsAt i.buffer ref,
      i.buffer.AgreeOn i'.buffer offset.toNat (Symbol.stop i.buffer offset)) :
    i'.series ref mint maxt = i.series ref mint maxt := by
  rw [series] at h
  cases hr : i.buffer.tailFrom ref.toNat >>= (Series.record i.buffer mint maxt).eval with
  | error e =>
      rw [hr] at h
      cases h
  | ok r =>
      rw [series, series, hr, Series.record_of_agreeOn hlen hagree hsymbols hr]

/-- **A corrupt part of an index fails only the operations that read it.** Two indices are opened with the same
options from buffers of the same length, and the keys of postings lead to the same offsets in both. Operations
that the first buffer has a section for, or a record that can be read, have the same outcome and the same journal
for both if the buffers agree on these parts of the first: the frame of the figures, the frame of the postings,
the record up to where its reading stops and the symbols that it names. -/
theorem corruption_is_confined {options : ReaderOptions} {store store' : ChunkStore}
    (hopen : (ofBytes options store b).result = .ok i)
    (hopen' : (ofBytes options store' b').result = .ok i') (hlen : b'.length = b.length)
    (hmap : ∀ key, i'.postingsMap.get? key = i.postingsMap.get? key) :
    (∀ s, Section.read b BlockStats.offset = .ok s →
      b.AgreeOn b' BlockStats.offset.toNat (BlockStats.offset.toNat + s.stored.length) →
      i'.stats = i.stats) ∧
    (∀ name value,
      (∀ offset, i.postingsMap.get? (keyOf [name, value]) = some offset →
        ∃ s, Section.read b offset = .ok s ∧
          b.AgreeOn b' offset.toNat (offset.toNat + s.stored.length)) →
      i'.postings name value = i.postings name value) ∧
    ∀ ref mint maxt s, (i.series ref mint maxt).result = .ok s →
      b.AgreeOn b' ref.toNat (Series.recordStop b ref mint maxt) →
      (∀ offset ∈ Series.symbolsAt b ref, b.AgreeOn b' offset.toNat (Symbol.stop b offset)) →
      i'.series ref mint maxt = i.series ref mint maxt := by
  obtain ⟨rfl, -, hoptions⟩ := of_result_ofBytes hopen
  obtain ⟨rfl, -, hoptions'⟩ := of_result_ofBytes hopen'
  have hsame : i'.options = i.options := hoptions'.trans hoptions.symm
  refine ⟨?_, ?_, ?_⟩
  · intro s hs hagree
    exact stats_of_agreeOn hlen hsame hs hagree
  · intro name value h
    exact postings_of_agreeOn hlen hsame hmap h
  · intro ref mint maxt s hs hagree hsymbols
    exact series_of_agreeOn hlen hs hagree hsymbols

/-- A block with one series: its figures, of which the first byte is given, a symbol of one letter, a record that
names this symbol twice and has one chunk, and its postings. -/
def smallBody (figure letter : UInt8) : Bytes :=
  ofWord32 magic ++ ([0, 0, 0, 0] ++ (⟨8, 1, figure :: List.replicate 63 0, 0⟩ : Section).stored ++
    [1, letter] ++ [2, 81, 81, 1, 0, 20, 5] ++ (⟨90, 1, [0, 0, 0, 83], 0⟩ : Section).stored)

/-- That block with its two maps, of which the second leads to the postings. -/
def smallBlock (figure letter : UInt8) : Bytes :=
  smallBody figure letter ++ ((⟨103, 1, [], 0⟩ : Section).stored ++
    ((⟨112, 1, [3, 97, 255, 97, 90], 0⟩ : Section).stored ++ (ofWord32 103 ++ ofWord32 112)))

/-- That block as it is opened. -/
def ofSmallBlock (figure letter : UInt8) : Index :=
  ⟨smallBlock figure letter, ⟨[]⟩, .empty, .ofList [([97, 255, 97], 90)], {}⟩

theorem length_smallBody (figure letter : UInt8) : (smallBody figure letter).length = 103 := by
  simp [smallBody]

theorem ends_smallBlock (figure letter : UInt8) : Ends (smallBlock figure letter) 103 112 where
  length_le := by
    rw [smallBlock, List.length_append, length_smallBody]
    exact Nat.le_add_right_of_le (by decide)
  magic_first := (List.prefix_append _ _).trans (List.prefix_append _ _)
  offsets_last := by
    refine ⟨smallBody figure letter ++ ((⟨103, 1, [], 0⟩ : Section).stored ++
      (⟨112, 1, [3, 97, 255, 97, 90], 0⟩ : Section).stored), ?_⟩
    simp only [smallBlock, List.append_assoc]

theorem result_ofBytes_smallBlock (figure letter : UInt8) :
    (ofBytes {} ⟨[]⟩ (smallBlock figure letter)).result = .ok (ofSmallBlock figure letter) := by
  have hthree : Varint.Written [3] 3 := ⟨.last (by decide), by decide, by decide⟩
  have hninety : Varint.Written [90] 90 := ⟨.last (by decide), by decide, by decide⟩
  have hentries : OffsetMap.Entries ([3] ++ ([97, 255, 97] ++ ([90] ++ []))) [([97, 255, 97], 90)] :=
    .cons hthree hninety .nil
  have hlabels : MapAt {} (smallBlock figure letter) 103 [] := by
    refine ⟨⟨103, 1, [], 0⟩, ⟨rfl, ⟨by decide, smallBody figure letter,
      (⟨112, 1, [3, 97, 255, 97, 90], 0⟩ : Section).stored ++ (ofWord32 103 ++ ofWord32 112),
      ?_, ?_⟩, nofun⟩, rfl, .nil⟩
    · exact (List.append_assoc _ _ _).symm
    · exact length_smallBody figure letter
  have hpostings : MapAt {} (smallBlock figure letter) 112 [([97, 255, 97], 90)] := by
    refine ⟨⟨112, 1, [3, 97, 255, 97, 90], 0⟩, ⟨rfl, ⟨by decide,
      smallBody figure letter ++ (⟨103, 1, [], 0⟩ : Section).stored, ofWord32 103 ++ ofWord32 112,
      ?_, ?_⟩, nofun⟩, rfl, hentries⟩
    · simp only [smallBlock, List.append_assoc]
    · rw [List.length_append, length_smallBody, Section.length_stored]
      rfl
  exact result_ofBytes_eq_ok_iff.2 ⟨103, 112, [], _, ends_smallBlock figure letter, hlabels, hpostings, rfl⟩

/-- A changed figure leaves the postings and the series as they were, and a changed symbol the figures. -/
theorem corruption_is_confined_smallBlock :
    ((ofSmallBlock 0 97).series 83 0 9).result = .ok (.found ⟨[⟨"a", "a"⟩], [⟨5, 0, 10⟩]⟩) ∧
    (ofSmallBlock 7 97).postings "a" "a" = (ofSmallBlock 0 97).postings "a" "a" ∧
    (ofSmallBlock 7 97).series 83 0 9 = (ofSmallBlock 0 97).series 83 0 9 ∧
    (ofSmallBlock 0 98).stats = (ofSmallBlock 0 97).stats := by
  have hopen := result_ofBytes_smallBlock 0 97
  have hseries : ((ofSmallBlock 0 97).series 83 0 9).result =
      .ok (.found ⟨[⟨"a", "a"⟩], [⟨5, 0, 10⟩]⟩) := by decide +kernel
  have hstop : Series.recordStop (smallBlock 0 97) 83 0 9 = 90 := by decide +kernel
  have hsymbols : Series.symbolsAt (smallBlock 0 97) 83 = [81, 81] := by decide +kernel
  obtain ⟨-, hpostings, hrecord⟩ :=
    corruption_is_confined hopen (result_ofBytes_smallBlock 7 97) (by decide +kernel) fun _ => rfl
  obtain ⟨hstats, -, -⟩ :=
    corruption_is_confined hopen (result_ofBytes_smallBlock 0 98) (by decide +kernel) fun _ => rfl
  refine ⟨hseries, ?_, ?_, ?_⟩
  · apply hpostings
    intro offset hoffset
    have hkey : (ofSmallBlock 0 97).postingsMap.get? (keyOf ["a", "a"]) = some 90 := by
      decide +kernel
    rw [hkey] at hoffset
    cases hoffset
    exact ⟨⟨90, 1, [0, 0, 0, 83], 0⟩, by decide +kernel, by decide +kernel⟩
  · apply hrecord 83 0 9 _ hseries
    · rw [hstop]
      decide +kernel
    · intro offset hmem
      rw [hsymbols, List.mem_cons, List.mem_singleton, or_self] at hmem
      subst hmem
      decide +kernel
  · exact hstats ⟨8, 1, List.replicate 64 0, 0⟩ (by decide +kernel) (by decide +kernel)

end Index

end SeriesBlock
