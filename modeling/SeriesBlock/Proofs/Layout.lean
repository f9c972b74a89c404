import SeriesBlock.Proofs.Maps
import SeriesBlock.Proofs.Written

/-!
# Layouts of an index

What an index holds, and how its buffer is laid out: the magic word, padding, the figures of the
block, then pieces in any order, then the two maps and their offsets. A piece is a symbol, the record
of a series, a label index or a list of postings. It says what it holds; the strings in it are written
as offsets, which `place` gives.

`WellFormed` says that a layout does what it claims: the offsets are those of symbols, and the maps
lead to the sections of their keys. Each piece of a layout stands in the buffer at its position
(`exists_split`), so its strings resolve (`text_place`), and if it is a section it is framed there
(`framed_of_placed`).
-/

set_option autoImplicit false

namespace SeriesBlock

open Bytes Varint

/-! ## Pieces -/

/-- A region between the figures of a block and its maps. -/
inductive Piece where
  | symbol (text : String)
  | series (labels : List Label) (chunks : List ChunkMeta)
  | labelIndex (names : List String) (tuples : List (List String))
  | postings (name value : String) (refs : List SeriesRef)
deriving DecidableEq

namespace Piece

/-- The payload of a label index: the arity and the offsets of the strings. -/
def tuplesPayload (place : String → UInt32) (names : List String) (tuples : List (List String)) :
    Bytes :=
  encodeNat names.length ++ StoredTuples.written place tuples

/-- A piece as it is written. -/
def bytes (place : String → UInt32) : Piece → Bytes
  | symbol text => Symbol.write (Utf8.encode text)
  | series labels chunks => Series.write place labels chunks
  | labelIndex names tuples =>
    Section.write Section.standardFlag (tuplesPayload place names tuples)
  | postings _ _ refs => Section.write Section.standardFlag (refs.flatMap ofWord32)

/-- The strings that a piece names by the offsets of their symbols. -/
def strings : Piece → List String
  | symbol _ => []
  | series labels _ => labels.flatMap fun l => [l.name, l.value]
  | labelIndex _ tuples => tuples.flatten
  | postings _ _ _ => []

/-- The names that a label index is for. -/
def names? : Piece → Option (List String)
  | labelIndex names _ => some names
  | _ => none

/-- The name and the value that a list of postings is for. -/
def pair? : Piece → Option (String × String)
  | postings name value _ => some (name, value)
  | _ => none

/-- Pieces that are written one after another, with their positions. -/
def positions (place : String → UInt32) : Nat → List Piece → List (Nat × Piece)
  | _, [] => []
  | start, p :: ps => (start, p) :: positions place (start + (p.bytes place).length) ps

variable {place : String → UInt32}

theorem map_snd_positions (start : Nat) (ps : List Piece) :
    (positions place start ps).map Prod.snd = ps := by
  induction ps generalizing start with
  | nil => rfl
  | cons p ps ih => rw [positions, List.map_cons, ih]

/-- **A piece stands at its position.** -/
theorem exists_split_of_mem {start n : Nat} {p : Piece} {ps : List Piece}
    (h : (n, p) ∈ positions place start ps) :
    ∃ pre post, ps.flatMap (bytes place) = pre ++ (p.bytes place ++ post) ∧
      start + pre.length = n := by
  induction ps generalizing start with
  | nil => cases h
  | cons q ps ih =>
      rcases List.mem_cons.1 h with he | hm
      · cases he
        exact ⟨[], ps.flatMap (bytes place), List.flatMap_cons, rfl⟩
      · obtain ⟨pre, post, hs, hn⟩ := ih hm
        refine ⟨q.bytes place ++ pre, post, ?_, ?_⟩
        · rw [List.flatMap_cons, hs, List.append_assoc]
        · rw [List.length_append, ← Nat.add_assoc]
          exact hn

end Piece

/-! ## Layouts -/

/-- What an index holds and in which order. -/
structure Layout where
  stats : BlockStats
  padding : Bytes
  pieces : List Piece
  /-- The offsets that stand for strings. -/
  place : String → UInt32
  /-- The entries of the map of label indices, in order. -/
  labels : List (Bytes × UInt32)
  /-- The entries of the map of postings, in order. -/
  postings : List (Bytes × UInt32)

namespace Layout

/-- The magic word, padding and the figures of a block. -/
def headOf (stats : BlockStats) (padding : Bytes) : Bytes :=
  ofWord32 Index.magic ++ (padding ++ Section.write Section.standardFlag stats.toPayload)

/-- The bytes before the first piece. -/
def head (l : Layout) : Bytes :=
  headOf l.stats l.padding

/-- The bytes before the two maps. -/
def front (l : Layout) : Bytes :=
  l.head ++ l.pieces.flatMap (Piece.bytes l.place)

/-- The section of the map of label indices. -/
def labelsSection (l : Layout) : Bytes :=
  Section.write Section.standardFlag (OffsetMap.payload l.labels)

/-- The section of the map of postings. -/
def postingsSection (l : Layout) : Bytes :=
  Section.write Section.standardFlag (OffsetMap.payload l.postings)

/-- The offset of the map of label indices. -/
def labelsOffset (l : Layout) : UInt32 :=
  UInt32.ofNat l.front.length

/-- The offset of the map of postings. -/
def postingsOffset (l : Layout) : UInt32 :=
  UInt32.ofNat (l.front.length + l.labelsSection.length)

/-- The buffer of an index. -/
def bytes (l : Layout) : Bytes :=
  l.front ++ (l.labelsSection ++ (l.postingsSection ++
    (ofWord32 l.labelsOffset ++ (ofWord32 l.postingsOffset ++ []))))

/-- The pieces with their positions in the buffer. -/
def placed (l : Layout) : List (Nat × Piece) :=
  Piece.positions l.place l.head.length l.pieces

/-- The lists of names that have a label index. -/
def nameLists (l : Layout) : List (List String) :=
  l.pieces.filterMap Piece.names?

/-- The labels that have a list of postings. -/
def pairs (l : Layout) : List (String × String) :=
  l.pieces.filterMap Piece.pair?

/-- The key and the offset of each label index. -/
def labelEntries (l : Layout) : List (Bytes × UInt32) :=
  l.placed.filterMap fun e => e.2.names?.map fun names => (Index.keyOf names, UInt32.ofNat e.1)

/-- The key and the offset of each list of postings. -/
def postingsEntries (l : Layout) : List (Bytes × UInt32) :=
  l.placed.filterMap fun e =>
    e.2.pair?.map fun p => (Index.keyOf [p.1, p.2], UInt32.ofNat e.1)

/-- A layout whose offsets and maps lead where they should, in a buffer that 32 bits can address. -/
structure WellFormed (l : Layout) : Prop where
  padding : l.padding.length = 4
  /-- Each string of a piece has its symbol at the offset that stands for it. -/
  symbols : ∀ p ∈ l.pieces, ∀ s ∈ p.strings, ((l.place s).toNat, .symbol s) ∈ l.placed
  /-- A label index is for some names, and its tuples have as many strings. -/
  arity : ∀ names tuples, .labelIndex names tuples ∈ l.pieces →
    names ≠ [] ∧ ∀ t ∈ tuples, t.length = names.length
  nameLists : l.nameLists.Nodup
  pairs : l.pairs.Nodup
  labels : l.labels.Perm l.labelEntries
  postings : l.postings.Perm l.postingsEntries
  small : l.bytes.length < 2 ^ 32

/-! ## Pieces in the buffer -/

variable {l : Layout}

/-- Each piece of a layout stands in the buffer at its position. -/
theorem exists_split {n : Nat} {p : Piece} (h : (n, p) ∈ l.placed) :
    ∃ pre post, l.bytes = pre ++ (p.bytes l.place ++ post) ∧ pre.length = n := by
  obtain ⟨pre, post, hs, hn⟩ := Piece.exists_split_of_mem h
  refine ⟨l.head ++ pre, post ++ (l.labelsSection ++ (l.postingsSection ++
    (ofWord32 l.labelsOffset ++ (ofWord32 l.postingsOffset ++ [])))), ?_, ?_⟩
  · rw [bytes, front, hs]
    simp only [List.append_assoc]
  · rw [List.length_append]
    exact hn

/-- A position in a well-formed layout is an offset. -/
theorem toNat_ofNat_position (hl : l.WellFormed) {n : Nat} {p : Piece} (h : (n, p) ∈ l.placed) :
    (UInt32.ofNat n).toNat = n := by
  obtain ⟨pre, post, hs, hn⟩ := exists_split h
  have hsmall := hl.small
  rw [hs, List.length_append] at hsmall
  exact UInt32.toNat_ofNat_of_lt' (by
    show n < 2 ^ 32
    omega)

theorem exists_position {p : Piece} (h : p ∈ l.pieces) : ∃ n, (n, p) ∈ l.placed := by
  have hmem : p ∈ l.placed.map Prod.snd := by
    rw [placed, Piece.map_snd_positions]
    exact h
  obtain ⟨⟨n, q⟩, hq, rfl⟩ := List.mem_map.1 hmem
  exact ⟨n, hq⟩

theorem mem_pieces {n : Nat} {p : Piece} (h : (n, p) ∈ l.placed) : p ∈ l.pieces := by
  have hmem : p ∈ l.placed.map Prod.snd := List.mem_map.2 ⟨_, h, rfl⟩
  rw [placed, Piece.map_snd_positions] at hmem
  exact hmem

/-- **The strings of a piece resolve**: the offset that stands for one is that of its symbol. -/
theorem text_place (hl : l.WellFormed) {p : Piece} (hp : p ∈ l.pieces) {s : String}
    (hs : s ∈ p.strings) : Symbol.text l.bytes (l.place s) = .ok s := by
  obtain ⟨pre, post, hsplit, hn⟩ := exists_split (hl.symbols p hp s hs)
  have hsmall := hl.small
  have hlen : (Utf8.encode s).length ≤ (Symbol.write (Utf8.encode s)).length := by
    rw [Symbol.write, List.length_append]
    omega
  rw [hsplit, Piece.bytes, List.length_append, List.length_append] at hsmall
  rw [hsplit]
  exact Symbol.text_write hn (by omega)

/-- A piece that is a section is framed at its position. -/
theorem framed_of_placed (hl : l.WellFormed) {n : Nat} {p : Piece} (h : (n, p) ∈ l.placed)
    (payload : Bytes) (hp : p.bytes l.place = Section.write Section.standardFlag payload) :
    Index.Framed l.bytes (UInt32.ofNat n) payload := by
  obtain ⟨pre, post, hs, hn⟩ := exists_split h
  have hsmall := hl.small
  rw [hs, hp] at hsmall
  rw [hs, hp]
  exact Index.framed_append (hn.trans (toNat_ofNat_position hl h).symm) hsmall

end Layout

end SeriesBlock
