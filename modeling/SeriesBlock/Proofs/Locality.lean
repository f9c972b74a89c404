import SeriesBlock.Proofs.Groups
import SeriesBlock.Series

/-!
# What a decoder looks at

`Local d` says that a success of `d` depends on the bytes it takes, and on the bytes after them only
through their number. It passes through a sequence of steps (`local_bind`), and every reading step has it:
the check of a declared number is the only one that looks past what it takes, and it looks at how much
there is.

So a decoder that succeeds on a part of one buffer does the same on another one of the same length, if the
two agree from where it starts to where it stops (`Local.eval_of_agreeOn`).

Where no declared number is checked, a decoder does not even look at how much follows (`SelfDelimiting`), and
then what it takes cannot be cut short: on a shorter part it fails (`SelfDelimiting.eval_take`).
-/

set_option autoImplicit false

namespace SeriesBlock

namespace Bytes

/-- Two buffers agree from `start` up to `stop`. -/
def AgreeOn (b b' : Bytes) (start stop : Nat) : Prop :=
  ∀ k < stop, start ≤ k → b[k]? = b'[k]?

instance (b b' : Bytes) (start stop : Nat) : Decidable (AgreeOn b b' start stop) :=
  inferInstanceAs (Decidable (∀ k < stop, start ≤ k → b[k]? = b'[k]?))

variable {pre w post b' : Bytes}

theorem AgreeOn.slice_eq (h : AgreeOn (pre ++ (w ++ post)) b' pre.length (pre.length + w.length)) :
    (b'.drop pre.length).take w.length = w := by
  apply List.ext_getElem?
  intro k
  by_cases hk : k < w.length
  · have hagree := h (pre.length + k) (Nat.add_lt_add_left hk _) (Nat.le_add_right _ _)
    rw [List.getElem?_append_right (Nat.le_add_right _ _), Nat.add_sub_cancel_left,
      List.getElem?_append_left hk] at hagree
    rw [List.getElem?_take_of_lt hk, List.getElem?_drop, hagree]
  · have hk' : w.length ≤ k := Nat.le_of_not_lt hk
    rw [List.getElem?_eq_none hk', List.getElem?_eq_none]
    exact Nat.le_trans (List.length_take_le _ _) hk'

/-- **What stands in a part where two buffers agree** stands there in both. -/
theorem AgreeOn.exists_append
    (h : AgreeOn (pre ++ (w ++ post)) b' pre.length (pre.length + w.length))
    (hlen : b'.length = (pre ++ (w ++ post)).length) :
    ∃ pre' post', b' = pre' ++ (w ++ post') ∧ pre'.length = pre.length ∧ post'.length = post.length := by
  rw [List.length_append, List.length_append] at hlen
  refine ⟨b'.take pre.length, (b'.drop pre.length).drop w.length, ?_, ?_, ?_⟩
  · have hsplit := List.take_append_drop w.length (b'.drop pre.length)
    rw [h.slice_eq] at hsplit
    rw [hsplit, List.take_append_drop]
  · rw [List.length_take]
    omega
  · rw [List.length_drop, List.length_drop]
    omega

end Bytes

namespace Decoder

variable {α β : Type}

/-- A success of the decoder depends on the bytes it takes, and on those after them only through their
number. -/
def Local (d : Decoder α) : Prop :=
  ∀ ⦃b rest : Bytes⦄ ⦃a : α⦄, d.run b = (.ok a, rest) →
    ∃ w, b = w ++ rest ∧
      ∀ rest' : Bytes, rest'.length = rest.length → d.run (w ++ rest') = (.ok a, rest')

/-- What a success of the decoder takes shows by itself where it ends: it is taken from in front of any
bytes. -/
def SelfDelimiting (d : Decoder α) : Prop :=
  ∀ ⦃b rest : Bytes⦄ ⦃a : α⦄, d.run b = (.ok a, rest) →
    ∃ w, b = w ++ rest ∧ ∀ rest' : Bytes, d.run (w ++ rest') = (.ok a, rest')

theorem SelfDelimiting.toLocal {d : Decoder α} (hd : SelfDelimiting d) : Local d := by
  intro b rest a h
  obtain ⟨w, hb, hw⟩ := hd h
  exact ⟨w, hb, fun rest' _ => hw rest'⟩

/-- **What shows where it ends cannot be cut short.** Had the decoder been content with a part of it, it
would not have taken the whole. -/
theorem SelfDelimiting.eval_take {d : Decoder α} (hd : SelfDelimiting d) {w : Bytes} {a : α} {c : Nat}
    (h : d.run w = (.ok a, [])) (hc : c < w.length) : ∃ e, d.eval (w.take c) = .error e := by
  cases hr : d.run (w.take c) with
  | mk r rest =>
      cases r with
      | error e => exact ⟨e, eval_of_run hr⟩
      | ok a' =>
          obtain ⟨v, hv, hsame⟩ := hd hr
          have hwhole := hsame (rest ++ w.drop c)
          rw [← List.append_assoc, ← hv, List.take_append_drop, h, Prod.mk.injEq] at hwhole
          have hnil := congrArg List.length hwhole.2
          rw [List.length_append, List.length_drop, List.length_nil] at hnil
          omega

/-! ## Sequences of steps -/

theorem selfDelimiting_pure (a : α) : SelfDelimiting (pure a) := by
  intro b rest a' h
  cases h
  exact ⟨[], rfl, fun _ => rfl⟩

theorem local_pure (a : α) : Local (pure a) :=
  (selfDelimiting_pure a).toLocal

theorem local_fail (e : BlockError) : Local (fail e : Decoder α) := by
  intro b rest a h
  cases h

theorem local_ofExcept (r : Except BlockError α) : Local (ofExcept r) := by
  intro b rest a h
  obtain ⟨rfl, rfl⟩ := run_ofExcept_eq_ok.1 h
  refine ⟨[], rfl, ?_⟩
  intro rest' _
  rfl

/-- Steps in sequence show where they end if each of them does. -/
theorem selfDelimiting_bind {d : Decoder α} {f : α → Decoder β} (hd : SelfDelimiting d)
    (hf : ∀ a, SelfDelimiting (f a)) : SelfDelimiting (d >>= f) := by
  intro b rest c h
  obtain ⟨a, mid, ha, hc⟩ := run_bind_eq_ok.1 h
  obtain ⟨w, rfl, hw⟩ := hd ha
  obtain ⟨v, rfl, hv⟩ := hf a hc
  refine ⟨w ++ v, (List.append_assoc w v rest).symm, ?_⟩
  intro rest'
  rw [List.append_assoc]
  exact run_bind_eq_ok.2 ⟨a, v ++ rest', hw _, hv rest'⟩

/-- Steps in sequence look at what each of them looks at. -/
theorem local_bind {d : Decoder α} {f : α → Decoder β} (hd : Local d) (hf : ∀ a, Local (f a)) :
    Local (d >>= f) := by
  intro b rest c h
  obtain ⟨a, mid, ha, hc⟩ := run_bind_eq_ok.1 h
  obtain ⟨w, rfl, hw⟩ := hd ha
  obtain ⟨v, rfl, hv⟩ := hf a hc
  refine ⟨w ++ v, (List.append_assoc w v rest).symm, ?_⟩
  intro rest' hlen
  rw [List.append_assoc]
  -- what the first step leaves is as long as before
  have hmid : (v ++ rest').length = (v ++ rest).length := by
    rw [List.length_append, List.length_append, hlen]
  exact run_bind_eq_ok.2 ⟨a, v ++ rest', hw _ hmid, hv rest' hlen⟩

theorem local_ite {c : Prop} [Decidable c] {d d' : Decoder α} (h : Local d) (h' : Local d') :
    Local (if c then d else d') := by
  split
  · exact h
  · exact h'

/-! ## Reading steps -/

theorem local_remaining : Local remaining := by
  intro b rest n h
  cases h
  refine ⟨[], rfl, ?_⟩
  intro rest' hlen
  exact Prod.ext (congrArg Except.ok hlen) rfl

theorem selfDelimiting_take (n : Nat) : SelfDelimiting (take n) := by
  intro b rest w h
  obtain ⟨rfl, hn⟩ := run_take_eq_ok.1 h
  refine ⟨w, rfl, ?_⟩
  intro rest'
  exact run_take_eq_ok.2 ⟨rfl, hn⟩

theorem local_take (n : Nat) : Local (take n) :=
  (selfDelimiting_take n).toLocal

theorem selfDelimiting_byte : SelfDelimiting byte := by
  intro b rest x h
  obtain rfl := run_byte_eq_ok.1 h
  exact ⟨[x], rfl, fun _ => rfl⟩

theorem selfDelimiting_word32 : SelfDelimiting word32 :=
  selfDelimiting_bind (selfDelimiting_take 4) fun _ => selfDelimiting_pure _

theorem selfDelimiting_uvarint : SelfDelimiting uvarint := by
  intro b rest v h
  obtain ⟨w, rfl, hw⟩ := run_uvarint_eq_ok_iff.1 h
  refine ⟨w, rfl, ?_⟩
  intro rest'
  exact run_uvarint_eq_ok_iff.2 ⟨w, rfl, hw⟩

theorem local_uvarint : Local uvarint :=
  selfDelimiting_uvarint.toLocal

/-- A signed number is read as the unsigned one that stands for it. -/
theorem varint_eq : varint = uvarint >>= fun u => pure (Varint.unzigzag u) := by
  funext b
  show varint.run b = (uvarint >>= fun u => pure (Varint.unzigzag u)).run b
  rw [run_bind]
  unfold run varint uvarint
  rw [Varint.decodeSigned]
  cases Varint.decode b with
  | none => rfl
  | some p => rfl

theorem local_varint : Local varint := by
  rw [varint_eq]
  exact local_bind local_uvarint fun _ => local_pure _

theorem local_uvarint32 : Local uvarint32 :=
  local_bind local_uvarint fun _ => local_ite (local_pure _) (local_fail _)

theorem local_count (least : Nat) : Local (count least) :=
  local_bind local_uvarint fun _ => local_bind local_remaining fun _ =>
    local_ite (local_pure _) (local_fail _)

/-! ## Where a decoder stops -/

/-- Where a decoder stops in a buffer if it starts at a position of it. -/
def stop (d : Decoder α) (b : Bytes) (start : Nat) : Nat :=
  b.length - (d.run (b.drop start)).2.length

theorem stop_append {d : Decoder α} {w rest : Bytes} {r : Except BlockError α}
    (h : d.run (w ++ rest) = (r, rest)) (pre : Bytes) :
    d.stop (pre ++ (w ++ rest)) pre.length = pre.length + w.length := by
  rw [stop, List.drop_left, h, List.length_append, List.length_append, ← Nat.add_assoc]
  exact Nat.add_sub_cancel _ _

/-- **A local decoder does not tell buffers apart that agree on what it takes.** -/
theorem Local.eval_of_agreeOn {d : Decoder α} (hd : Local d) {b b' : Bytes} {start : Nat} {a : α}
    (hlen : b'.length = b.length) (hagree : b.AgreeOn b' start (d.stop b start))
    (h : (b.tailFrom start >>= d.eval) = .ok a) : (b'.tailFrom start >>= d.eval) = .ok a := by
  obtain ⟨tail, htail, heval⟩ := except_bind_eq_ok.1 h
  obtain ⟨rest, hrun⟩ := eval_eq_ok.1 heval
  obtain ⟨w, rfl, hw⟩ := hd hrun
  obtain ⟨pre, rfl, rfl⟩ := Bytes.tailFrom_eq_ok.1 htail
  rw [stop_append hrun] at hagree
  obtain ⟨pre', rest', rfl, hpre, hrest⟩ := hagree.exists_append hlen
  exact except_bind_eq_ok.2 ⟨_, Bytes.tailFrom_append hpre, eval_of_run (hw rest' hrest)⟩

end Decoder

/-! ## Symbols and records -/

open Decoder

namespace Symbol

theorem local_stored : Local stored :=
  local_bind local_uvarint fun _ => local_take _

theorem lookup_eq_ok_iff {b w : Bytes} {offset : UInt32} :
    lookup b offset = .ok w ↔ (b.tailFrom offset.toNat >>= stored.eval) = .ok w := by
  rw [lookup]
  cases b.tailFrom offset.toNat >>= stored.eval with
  | ok w' => rfl
  | error e => exact iff_of_false nofun nofun

end Symbol

namespace Series

variable {symbols symbols' b rest : Bytes}

theorem local_readLabels (symbols : Bytes) (n : Nat) : Local (readLabels symbols n) := by
  induction n with
  | zero => exact local_pure []
  | succ n ih =>
      refine local_bind local_uvarint32 fun nameOffset => ?_
      refine local_bind local_uvarint32 fun valueOffset => ?_
      refine local_bind (local_ofExcept _) fun name => ?_
      refine local_bind (local_ofExcept _) fun value => ?_
      exact local_bind ih fun more => local_pure _

theorem local_readChunks (mint maxt : Timestamp) (n : Nat) : Local (readChunks mint maxt n) := by
  induction n with
  | zero => exact local_pure _
  | succ n ih =>
      refine local_bind local_varint fun first => ?_
      refine local_ite (local_pure _) ?_
      refine local_bind local_varint fun last => ?_
      refine local_bind local_uvarint32 fun ref => ?_
      exact local_bind ih fun _ => local_ite (local_pure _) (local_pure _)

/-- **A record is read from the bytes it takes**, once its symbols are known. -/
theorem local_record (symbols : Bytes) (mint maxt : Timestamp) : Local (record symbols mint maxt) := by
  refine local_bind (local_count 1) fun offsets => ?_
  refine local_ite (local_fail _) ?_
  refine local_bind (local_readLabels symbols _) fun labels => ?_
  refine local_bind (local_count 3) fun declared => ?_
  exact local_bind (local_readChunks mint maxt declared) fun _ => local_pure _

/-- Reads `n` offsets. -/
def readOffsets : Nat → Decoder (List UInt32)
  | 0 => pure []
  | n + 1 => do
    let offset ← Decoder.uvarint32
    let more ← readOffsets n
    pure (offset :: more)

/-- The offsets of the symbols that a record names, at its front. -/
def namedSymbols : Decoder (List UInt32) := do
  let n ← Decoder.count 1
  readOffsets n

/-- Labels that were read are read alike if their symbols are the same texts elsewhere. -/
theorem exists_offsets_of_readLabels {n : Nat} {labels : List Label}
    (h : (readLabels symbols n).run b = (.ok labels, rest)) :
    ∃ offsets, (readOffsets (2 * n)).run b = (.ok offsets, rest) ∧
      (∀ offset ∈ offsets, ∃ t, Symbol.text symbols offset = .ok t) ∧
      ∀ symbols', (∀ offset ∈ offsets, Symbol.text symbols' offset = Symbol.text symbols offset) →
        (readLabels symbols' n).run b = (.ok labels, rest) := by
  induction n generalizing b labels with
  | zero =>
      cases h
      exact ⟨[], rfl, nofun, fun _ _ => rfl⟩
  | succ n ih =>
      obtain ⟨nameOffset, b₁, h₁, h⟩ := run_bind_eq_ok.1 h
      obtain ⟨valueOffset, b₂, h₂, h⟩ := run_bind_eq_ok.1 h
      obtain ⟨name, b₃, h₃, h⟩ := run_bind_eq_ok.1 h
      obtain ⟨value, b₄, h₄, h⟩ := run_bind_eq_ok.1 h
      obtain ⟨more, b₅, h₅, h⟩ := run_bind_eq_ok.1 h
      cases h
      obtain ⟨hname, rfl⟩ := run_ofExcept_eq_ok.1 h₃
      obtain ⟨hvalue, rfl⟩ := run_ofExcept_eq_ok.1 h₄
      obtain ⟨offsets, hoffsets, htexts, hsame⟩ := ih h₅
      refine ⟨nameOffset :: valueOffset :: offsets, ?_, ?_, ?_⟩
      · exact run_bind_eq_ok.2 ⟨nameOffset, b₁, h₁, run_bind_eq_ok.2 ⟨valueOffset :: offsets, rest,
          run_bind_eq_ok.2 ⟨valueOffset, _, h₂, run_bind_eq_ok.2 ⟨offsets, rest, hoffsets, rfl⟩⟩, rfl⟩⟩
      · intro offset hmem
        rcases List.mem_cons.1 hmem with rfl | hmem
        · exact ⟨name, hname⟩
        · rcases List.mem_cons.1 hmem with rfl | hmem
          · exact ⟨value, hvalue⟩
          · exact htexts offset hmem
      · intro symbols' htext
        have hname' := (htext nameOffset List.mem_cons_self).trans hname
        have hvalue' := (htext valueOffset (List.mem_cons_of_mem _ List.mem_cons_self)).trans hvalue
        have hmore := hsame symbols' fun offset hmem =>
          htext offset (List.mem_cons_of_mem _ (List.mem_cons_of_mem _ hmem))
        refine run_bind_eq_ok.2 ⟨nameOffset, b₁, h₁, run_bind_eq_ok.2 ⟨valueOffset, _, h₂, ?_⟩⟩
        refine run_bind_eq_ok.2 ⟨name, _, run_ofExcept_eq_ok.2 ⟨hname', rfl⟩, ?_⟩
        refine run_bind_eq_ok.2 ⟨value, _, run_ofExcept_eq_ok.2 ⟨hvalue', rfl⟩, ?_⟩
        exact run_bind_eq_ok.2 ⟨more, rest, hmore, rfl⟩

/-- **A record that was read is read alike** if the symbols that it names are the same texts elsewhere. -/
theorem exists_offsets_of_record {mint maxt : Timestamp} {r : List Label × List ChunkMeta × Nat}
    (h : (record symbols mint maxt).run b = (.ok r, rest)) :
    ∃ offsets, namedSymbols.eval b = .ok offsets ∧
      (∀ offset ∈ offsets, ∃ t, Symbol.text symbols offset = .ok t) ∧
      ∀ symbols', (∀ offset ∈ offsets, Symbol.text symbols' offset = Symbol.text symbols offset) →
        (record symbols' mint maxt).run b = (.ok r, rest) := by
  obtain ⟨n, b₁, h₁, h⟩ := run_bind_eq_ok.1 h
  by_cases hodd : n % 2 = 1
  · rw [if_pos hodd] at h
    cases h
  · rw [if_neg hodd] at h
    obtain ⟨labels, b₂, h₂, h⟩ := run_bind_eq_ok.1 h
    obtain ⟨offsets, hoffsets, htexts, hsame⟩ := exists_offsets_of_readLabels h₂
    -- an even number of offsets is read in pairs
    rw [show 2 * (n / 2) = n by omega] at hoffsets
    refine ⟨offsets, eval_eq_ok.2 ⟨b₂, run_bind_eq_ok.2 ⟨n, b₁, h₁, hoffsets⟩⟩, htexts, ?_⟩
    intro symbols' htext
    refine run_bind_eq_ok.2 ⟨n, b₁, h₁, ?_⟩
    rw [if_neg hodd]
    exact run_bind_eq_ok.2 ⟨labels, b₂, hsame symbols' htext, h⟩

end Series

end SeriesBlock
