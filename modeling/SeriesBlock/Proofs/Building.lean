import SeriesBlock.Proofs.Layout

/-!
# Building a layout

Pieces that come in an order in which each string has its symbol before it is used can be laid out as
they come (`build`): the offset of a string is the position of its first symbol, and the maps list
their sections in the order of the pieces. The layout is well-formed (`build_wellFormed`), so the index
that it makes is read back.

The offsets that pieces use are known when these are written, and what is learned later does not
change them (`lookup_intern`): this carries the induction over the pieces (`mem_positions_intern`).
-/

set_option autoImplicit false

namespace SeriesBlock

open Bytes

/-! ## Offsets of strings -/

namespace Piece

/-- The offset that stands for a string, by the symbols written so far. -/
def placeOf (known : List (String × UInt32)) (s : String) : UInt32 :=
  (known.lookup s).getD 0

/-- The symbols written up to and including a piece at a position; the first of a string counts. -/
def learn (known : List (String × UInt32)) (start : Nat) : Piece → List (String × UInt32)
  | symbol s => if (known.lookup s).isSome then known else (s, UInt32.ofNat start) :: known
  | _ => known

/-- The symbols written after pieces that start at a position. -/
def intern (known : List (String × UInt32)) (start : Nat) : List Piece → List (String × UInt32)
  | [] => known
  | p :: ps => intern (p.learn known start) (start + (p.bytes (placeOf known)).length) ps

/-- Each string is used only after a symbol of it, given the pieces before. -/
def DefinedBefore (before : List Piece) : List Piece → Prop
  | [] => True
  | p :: ps => (∀ s ∈ p.strings, symbol s ∈ before) ∧ DefinedBefore (before ++ [p]) ps

instance decidableDefinedBefore : (before ps : List Piece) → Decidable (DefinedBefore before ps)
  | _, [] => isTrue trivial
  | before, p :: ps =>
    have := decidableDefinedBefore (before ++ [p]) ps
    inferInstanceAs (Decidable (_ ∧ _))

/-- The symbols among some pieces are known. -/
def Knows (known : List (String × UInt32)) (before : List Piece) : Prop :=
  ∀ s, symbol s ∈ before → ∃ o, known.lookup s = some o

variable {known : List (String × UInt32)} {before ps : List Piece} {p : Piece} {start : Nat}
  {s : String} {o : UInt32}

/-- What is learned at a piece is either known or the position of a symbol. -/
theorem lookup_learn_cases (h : (p.learn known start).lookup s = some o) :
    known.lookup s = some o ∨ p = symbol s ∧ o = UInt32.ofNat start := by
  cases p with
  | symbol t =>
      rw [learn] at h
      by_cases ht : (known.lookup t).isSome
      · rw [if_pos ht] at h
        exact Or.inl h
      · rw [if_neg ht] at h
        by_cases hst : s = t
        · subst hst
          rw [List.lookup_cons_self] at h
          cases h
          exact Or.inr ⟨rfl, rfl⟩
        · rw [List.lookup_cons, beq_false_of_ne hst] at h
          exact Or.inl h
  | series labels chunks => exact Or.inl h
  | labelIndex names tuples => exact Or.inl h
  | postings name value refs => exact Or.inl h

/-- Nothing that is known is forgotten or changed. -/
theorem lookup_learn (h : known.lookup s = some o) : (p.learn known start).lookup s = some o := by
  cases p with
  | symbol t =>
      rw [learn]
      by_cases ht : (known.lookup t).isSome
      · rw [if_pos ht]
        exact h
      -- only a string that is not known is added
      · have hst : s ≠ t := by
          intro hst
          rw [← hst, h] at ht
          exact ht rfl
        rw [if_neg ht, List.lookup_cons, beq_false_of_ne hst]
        exact h
  | series labels chunks => exact h
  | labelIndex names tuples => exact h
  | postings name value refs => exact h

theorem lookup_intern (h : known.lookup s = some o) :
    (intern known start ps).lookup s = some o := by
  induction ps generalizing known start with
  | nil => exact h
  | cons p ps ih =>
      rw [intern]
      exact ih (lookup_learn h)

/-- A piece makes its symbol known. -/
theorem knows_learn (hk : Knows known before) : Knows (p.learn known start) (before ++ [p]) := by
  intro s hs
  rcases List.mem_append.1 hs with hb | hp
  · obtain ⟨o, ho⟩ := hk s hb
    exact ⟨o, lookup_learn ho⟩
  · rw [List.mem_singleton] at hp
    subst hp
    rw [learn]
    by_cases ht : (known.lookup s).isSome
    · rw [if_pos ht]
      exact Option.isSome_iff_exists.1 ht
    · rw [if_neg ht]
      exact ⟨_, List.lookup_cons_self⟩

theorem knows_intern (hk : Knows known before) : Knows (intern known start ps) (before ++ ps) := by
  induction ps generalizing known start before with
  | nil =>
      rw [List.append_nil]
      exact hk
  | cons p ps ih =>
      have hp : Knows (p.learn known start) (before ++ [p]) := knows_learn hk
      have hnext : Knows (intern known start (p :: ps)) (before ++ [p] ++ ps) := ih hp
      rw [List.append_assoc] at hnext
      exact hnext

/-- Pieces are written alike if the offsets of their strings agree. -/
theorem bytes_congr {place place' : String → UInt32} (h : ∀ s ∈ p.strings, place s = place' s) :
    p.bytes place = p.bytes place' := by
  cases p with
  | symbol t => rfl
  | postings name value refs => rfl
  | series labels chunks =>
      have hlabels : ∀ lb ∈ labels, Label.write place lb = Label.write place' lb := by
        intro lb hlb
        have hname := h lb.name (List.mem_flatMap.2 ⟨lb, hlb, List.mem_cons_self⟩)
        have hvalue := h lb.value
          (List.mem_flatMap.2 ⟨lb, hlb, List.mem_cons_of_mem _ List.mem_cons_self⟩)
        rw [Label.write, Label.write, hname, hvalue]
      have hflat : labels.flatMap (Label.write place) = labels.flatMap (Label.write place') := by
        rw [List.flatMap_def, List.flatMap_def, List.map_congr_left hlabels]
      rw [bytes, bytes, Series.write, Series.write, hflat]
  | labelIndex names tuples =>
      have htuples : ∀ t ∈ tuples, (t.flatMap fun s => ofWord32 (place s)) =
          t.flatMap fun s => ofWord32 (place' s) := by
        intro t ht
        have hstrings : ∀ s ∈ t, ofWord32 (place s) = ofWord32 (place' s) := by
          intro s hs
          rw [h s (List.mem_flatten.2 ⟨t, ht, hs⟩)]
        rw [List.flatMap_def, List.flatMap_def, List.map_congr_left hstrings]
      have hflat : StoredTuples.written place tuples = StoredTuples.written place' tuples := by
        rw [StoredTuples.written, StoredTuples.written, List.flatMap_def, List.flatMap_def,
          List.map_congr_left htuples]
      rw [bytes, bytes, tuplesPayload, tuplesPayload, hflat]

/-- **A string is placed at a symbol of it**, unless it was known before. -/
theorem mem_positions_intern (hk : Knows known before) (hd : DefinedBefore before ps)
    (h : (intern known start ps).lookup s = some o) :
    known.lookup s = some o ∨ ∃ n, o = UInt32.ofNat n ∧
      (n, symbol s) ∈ positions (placeOf (intern known start ps)) start ps := by
  induction ps generalizing known start before with
  | nil => exact Or.inl h
  | cons p ps ih =>
      obtain ⟨hp, hd⟩ := hd
      -- the strings of the piece are known, so it is written with the offsets that they keep
      have hbytes : p.bytes (placeOf (intern known start (p :: ps))) = p.bytes (placeOf known) := by
        refine bytes_congr ?_
        intro t ht
        obtain ⟨o', ho'⟩ := hk t (hp t ht)
        rw [placeOf, placeOf, lookup_intern ho', ho']
      rw [positions, hbytes]
      rw [intern] at h ⊢
      rcases ih (knows_learn hk) hd h with hknown | ⟨n, hn, hmem⟩
      · rcases lookup_learn_cases hknown with hold | ⟨rfl, ho⟩
        · exact Or.inl hold
        · exact Or.inr ⟨start, ho, List.mem_cons_self⟩
      · exact Or.inr ⟨n, hn, List.mem_cons_of_mem _ hmem⟩

/-- A string that is used has a symbol. -/
theorem symbol_mem_of_definedBefore (hd : DefinedBefore before ps) (hp : p ∈ ps)
    (hs : s ∈ p.strings) : symbol s ∈ before ++ ps := by
  induction ps generalizing before with
  | nil => cases hp
  | cons q ps ih =>
      obtain ⟨hq, hd⟩ := hd
      rcases List.mem_cons.1 hp with he | hm
      · subst he
        exact List.mem_append_left _ (hq s hs)
      · have h := ih hd hm
        rw [List.append_assoc] at h
        exact h

end Piece

/-! ## The layout of some pieces -/

namespace Layout

variable {stats : BlockStats} {padding : Bytes} {pieces : List Piece}

/-- Pieces as they come, without their maps. -/
def unmapped (stats : BlockStats) (padding : Bytes) (pieces : List Piece) : Layout where
  stats := stats
  padding := padding
  pieces := pieces
  place := Piece.placeOf (Piece.intern [] (headOf stats padding).length pieces)
  labels := []
  postings := []

/-- Pieces as they come, with the maps that lead to them. -/
def build (stats : BlockStats) (padding : Bytes) (pieces : List Piece) : Layout where
  stats := stats
  padding := padding
  pieces := pieces
  place := (unmapped stats padding pieces).place
  labels := (unmapped stats padding pieces).labelEntries
  postings := (unmapped stats padding pieces).postingsEntries

/-- **A layout that was built is well-formed**, if its pieces agree with each other and the buffer
can be addressed. -/
theorem build_wellFormed (hpadding : padding.length = 4)
    (hsymbols : Piece.DefinedBefore [] pieces)
    (harity : ∀ names tuples, .labelIndex names tuples ∈ pieces →
      names ≠ [] ∧ ∀ t ∈ tuples, t.length = names.length)
    (hnames : (pieces.filterMap Piece.names?).Nodup) (hpairs : (pieces.filterMap Piece.pair?).Nodup)
    (hsmall : (build stats padding pieces).bytes.length < 2 ^ 32) :
    (build stats padding pieces).WellFormed where
  padding := hpadding
  symbols := by
    intro p hp s hs
    have hnone : Piece.Knows [] [] := by
      intro t ht
      cases ht
    have hmem := Piece.symbol_mem_of_definedBefore hsymbols hp hs
    have hknows : Piece.Knows (Piece.intern [] (headOf stats padding).length pieces) pieces :=
      Piece.knows_intern hnone
    obtain ⟨o, ho⟩ := hknows s hmem
    -- nothing is known at first, so the string is placed at a symbol of it
    rcases Piece.mem_positions_intern hnone hsymbols ho with hknown | ⟨n, hn, hplaced⟩
    · cases hknown
    · obtain ⟨pre, post, hsplit, hlen⟩ :=
        exists_split (l := build stats padding pieces) hplaced
      have hfits : n < 2 ^ 32 := by
        rw [hsplit, List.length_append] at hsmall
        omega
      have hplace : ((build stats padding pieces).place s).toNat = n := by
        show (Piece.placeOf (Piece.intern [] (headOf stats padding).length pieces) s).toNat = n
        rw [Piece.placeOf, ho, hn]
        exact UInt32.toNat_ofNat_of_lt' hfits
      rw [hplace]
      exact hplaced
  arity := harity
  nameLists := hnames
  pairs := hpairs
  labels := List.Perm.refl _
  postings := List.Perm.refl _
  small := hsmall

end Layout

end SeriesBlock
