import SeriesBlock.Proofs.Record

/-!
# Reading for a range of times

On a record whose chunks start in order of time, reading for a range keeps exactly the chunks that
overlap it, in stored order (`run_readChunks_of_sorted`). The reading stops at the first chunk that
starts after the range, with the entries behind it unread: none of those overlaps the range either.
Every chunk of the record is then either kept or counted as left out (`series_eq_filter_overlaps`).
-/

set_option autoImplicit false

namespace SeriesBlock

open Decoder

/-- The chunks that overlap a range, in order. -/
def ChunkMeta.within (mint maxt : Timestamp) (cs : List ChunkMeta) : List ChunkMeta :=
  cs.filter fun c => c.overlaps mint maxt

/-- Chunks that start in order of time. -/
def ChunkMeta.Sorted (cs : List ChunkMeta) : Prop :=
  cs.Pairwise fun c d => c.minTime ≤ d.minTime

namespace ChunkMeta

variable {mint maxt : Timestamp}

theorem overlaps_eq_false_of_lt {c : ChunkMeta} (h : maxt < c.minTime) :
    c.overlaps mint maxt = false := by
  have hn : ¬ c.minTime ≤ maxt := Int64.not_le.2 h
  simp [overlaps, hn]

theorem overlaps_eq_false_of_maxTime_lt {c : ChunkMeta} (h : c.maxTime < mint) :
    c.overlaps mint maxt = false := by
  have hn : ¬ mint ≤ c.maxTime := Int64.not_le.2 h
  simp [overlaps, hn]

theorem overlaps_of_not_lt {c : ChunkMeta} (h₁ : ¬ maxt < c.minTime) (h₂ : ¬ c.maxTime < mint) :
    c.overlaps mint maxt = true := by
  simp [overlaps, Int64.not_lt.1 h₁, Int64.not_lt.1 h₂]

/-- Once a chunk starts after the range, no chunk from there on overlaps it. -/
theorem within_eq_nil_of_lt {c : ChunkMeta} {cs : List ChunkMeta} (hs : Sorted (c :: cs))
    (h : maxt < c.minTime) : within mint maxt (c :: cs) = [] := by
  refine List.filter_eq_nil_iff.2 ?_
  intro d hd
  rw [Bool.not_eq_true]
  apply overlaps_eq_false_of_lt
  rcases List.mem_cons.1 hd with rfl | hd
  · exact h
  · exact Int64.lt_of_lt_of_le h ((List.pairwise_cons.1 hs).1 d hd)

end ChunkMeta

namespace Series

open ChunkMeta

/-- **The entries of a sorted record, read for a range.** Those that overlap it are kept, and the
others are counted. -/
theorem run_readChunks_of_sorted {n : Nat} {b rest : Bytes} {cs : List ChunkMeta}
    (mint maxt : Timestamp) (h : (entries n).run b = (.ok cs, rest)) (hs : Sorted cs) :
    ∃ skipped left, (readChunks mint maxt n).run b = (.ok (within mint maxt cs, skipped), left) ∧
      (within mint maxt cs).length + skipped = n := by
  induction n generalizing b cs with
  | zero =>
      cases h
      exact ⟨0, rest, rfl, rfl⟩
  | succ n ih =>
      obtain ⟨first, b₁, h₁, last, b₂, h₂, ref, b₃, h₃, more, h₄, rfl⟩ := run_entries_succ.1 h
      -- the entry ends the reading, is passed over, or is kept
      by_cases hmax : maxt < first
      · -- the entries from here on are left unread, and counted together
        refine ⟨n + 1, b₁, ?_, ?_⟩
        · refine run_bind_eq_ok.2 ⟨first, b₁, h₁, ?_⟩
          rw [if_pos hmax, run_pure, within_eq_nil_of_lt hs hmax]
        · rw [within_eq_nil_of_lt hs hmax, List.length_nil, Nat.zero_add]
      · obtain ⟨skipped, left, hr, hlen⟩ := ih h₄ (List.pairwise_cons.1 hs).2
        -- whatever becomes of the entry, the ones after it are read as the hypothesis says
        have hstep : ∀ (kept : List ChunkMeta) (skipped' : Nat),
            (if last < mint then pure (within mint maxt more, skipped + 1)
              else pure (⟨ref, first, last⟩ :: within mint maxt more, skipped) :
                Decoder (List ChunkMeta × Nat)).run left = (.ok (kept, skipped'), left) →
            (readChunks mint maxt (n + 1)).run b = (.ok (kept, skipped'), left) := by
          intro kept skipped' hk
          refine run_bind_eq_ok.2 ⟨first, b₁, h₁, ?_⟩
          rw [if_neg hmax]
          exact run_bind_eq_ok.2 ⟨last, b₂, h₂, run_bind_eq_ok.2 ⟨ref, b₃, h₃,
            run_bind_eq_ok.2 ⟨(within mint maxt more, skipped), left, hr, hk⟩⟩⟩
        by_cases hmin : last < mint
        · have ho : (⟨ref, first, last⟩ : ChunkMeta).overlaps mint maxt = false :=
            overlaps_eq_false_of_maxTime_lt hmin
          have hw : within mint maxt (⟨ref, first, last⟩ :: more) = within mint maxt more :=
            List.filter_cons_of_neg (by rw [ho]; exact Bool.false_ne_true)
          refine ⟨skipped + 1, left, hstep _ _ ?_, ?_⟩
          · rw [if_pos hmin, run_pure, hw]
          · rw [hw]
            omega
        · have ho : (⟨ref, first, last⟩ : ChunkMeta).overlaps mint maxt = true :=
            overlaps_of_not_lt hmax hmin
          have hw : within mint maxt (⟨ref, first, last⟩ :: more) =
              ⟨ref, first, last⟩ :: within mint maxt more := List.filter_cons_of_pos ho
          refine ⟨skipped, left, hstep _ _ ?_, ?_⟩
          · rw [if_neg hmin, run_pure, hw]
          · rw [hw, List.length_cons]
            omega

end Series

namespace Index

open ChunkMeta

/-- The record at a reference, with all its chunks. -/
def wholeSeries (i : Index) (ref : SeriesRef) : Except BlockError (List Label × List ChunkMeta) :=
  i.buffer.tailFrom ref.toNat >>= (Series.wholeRecord i.buffer).eval

/-- What a record that was read writes into the journal of left-out chunks. -/
theorem count_recordEntries (kept skipped : Nat) :
    Journal.count .chunksSkipped (recordEntries kept skipped) = skipped := by
  unfold recordEntries
  by_cases hk : kept = 0 <;> by_cases hs : skipped = 0 <;> simp [hk, hs, Journal.count]

/-- **Time filtering is exact on sorted records.** A record that can be read whole, with chunks that
start in order of time, is read for every range: the outcome has exactly the chunks that overlap the
range, in stored order, and says that there are none exactly when there are none. Every chunk is
either kept or counted as left out. -/
theorem series_eq_filter_overlaps (i : Index) (ref : SeriesRef) (labels : List Label)
    (cs : List ChunkMeta) (mint maxt : Timestamp) (h : i.wholeSeries ref = .ok (labels, cs))
    (hs : cs.Pairwise fun c d => c.minTime ≤ d.minTime) :
    (i.series ref mint maxt).result = .ok
        (if cs.filter (fun c => c.overlaps mint maxt) = [] then .notInRange
          else .found ⟨labels, cs.filter fun c => c.overlaps mint maxt⟩) ∧
      (cs.filter fun c => c.overlaps mint maxt).length +
        (i.series ref mint maxt).journal.count .chunksSkipped = cs.length := by
  cases ht : i.buffer.tailFrom ref.toNat with
  | error e =>
      rw [wholeSeries, ht] at h
      cases h
  | ok tail =>
      rw [wholeSeries, ht] at h
      obtain ⟨rest, hr⟩ := eval_eq_ok.1 h
      -- the labels are read as in the whole record, and the entries for the range
      obtain ⟨mid, hc, hrec⟩ := Series.run_record_of_wholeRecord hr
      obtain ⟨skipped, left, hk, hlen⟩ := Series.run_readChunks_of_sorted mint maxt hc hs
      have he : (i.buffer.tailFrom ref.toNat >>= (Series.record i.buffer mint maxt).eval) =
          .ok (labels, within mint maxt cs, skipped) := by
        rw [ht]
        exact eval_of_run (hrec mint maxt _ _ _ hk)
      have hser : i.series ref mint maxt =
          ⟨.ok (if (within mint maxt cs).isEmpty then .notInRange
            else .found ⟨labels, within mint maxt cs⟩),
            recordEntries (within mint maxt cs).length skipped⟩ := by
        rw [series, he]
      constructor
      · rw [hser]
        simp only [List.isEmpty_iff]
        rfl
      · rw [hser, count_recordEntries]
        exact hlen

/-- Three chunks, of which the first overlaps the range, the second ends before it, and the third
starts after it. -/
theorem series_eq_filter_overlaps_three :
    let i : Index :=
      ⟨[1, 97, 1, 98, 2, 0, 2, 3, 0, 20, 5, 10, 12, 7, 40, 60, 9], ⟨[]⟩, .empty, .empty, {}⟩
    i.wholeSeries 4 = .ok ([⟨"a", "b"⟩], [⟨5, 0, 10⟩, ⟨7, 5, 6⟩, ⟨9, 20, 30⟩]) ∧
      (i.series 4 8 15).result = .ok (.found ⟨[⟨"a", "b"⟩], [⟨5, 0, 10⟩]⟩) := by
  intro i
  have h : i.wholeSeries 4 = .ok ([⟨"a", "b"⟩], [⟨5, 0, 10⟩, ⟨7, 5, 6⟩, ⟨9, 20, 30⟩]) := by
    have ho : (i.wholeSeries 4).toOption =
        some ([⟨"a", "b"⟩], [⟨5, 0, 10⟩, ⟨7, 5, 6⟩, ⟨9, 20, 30⟩]) := by decide +kernel
    cases hr : i.wholeSeries 4 with
    | ok p =>
        rw [hr] at ho
        exact congrArg Except.ok (Option.some.inj ho)
    | error e =>
        rw [hr] at ho
        cases ho
  exact ⟨h, (series_eq_filter_overlaps i 4 _ _ 8 15 h (by decide)).1⟩

end Index

end SeriesBlock
