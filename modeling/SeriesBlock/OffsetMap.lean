import SeriesBlock.Section

/-!
# Maps from keys to offsets

Two sections of an index map byte keys to the offsets of other sections. Their payload is a run of entries: the
length of the key, the key, the offset. A key that is written again takes the later offset (`insert`), so a map
holds each key once.

Keys that are made of several names join them with a byte that no text contains (`Key.join`, `Key.split`).
-/

set_option autoImplicit false

namespace SeriesBlock

/-- Where each key leads, the keys in the order in which they first came. -/
structure OffsetMap where
  entries : List (Bytes × UInt32)
  nodup : (entries.map Prod.fst).Nodup

namespace OffsetMap

/-- The map without keys. -/
def empty : OffsetMap := ⟨[], List.nodup_nil⟩

/-- Overwrites the entry of a key, or adds one at the end. -/
def put (key : Bytes) (offset : UInt32) : List (Bytes × UInt32) → List (Bytes × UInt32)
  | [] => [(key, offset)]
  | (k, o) :: rest => if k = key then (key, offset) :: rest else (k, o) :: put key offset rest

/-- Writing a key keeps the keys, or adds that key. -/
theorem keys_put (key : Bytes) (offset : UInt32) (entries : List (Bytes × UInt32)) :
    (put key offset entries).map Prod.fst =
      if key ∈ entries.map Prod.fst then entries.map Prod.fst else entries.map Prod.fst ++ [key] := by
  induction entries with
  | nil => rfl
  | cons e rest ih =>
    obtain ⟨k, o⟩ := e
    by_cases h : k = key
    · simp [put, h]
    · have h' : ¬ key = k := fun he => h he.symm
      simp only [put, if_neg h, List.map_cons, List.mem_cons, h', false_or, ih]
      split <;> rfl

/-- Writing a key never makes a second entry for one. -/
theorem nodup_put {key : Bytes} {offset : UInt32} {entries : List (Bytes × UInt32)}
    (h : (entries.map Prod.fst).Nodup) : ((put key offset entries).map Prod.fst).Nodup := by
  rw [keys_put]
  split
  · exact h
  · next hk =>
    rw [List.nodup_append]
    refine ⟨h, by simp, ?_⟩
    intro a ha b hb hab
    rw [List.mem_singleton] at hb
    exact hk (hb ▸ hab ▸ ha)

/-- The map in which `key` leads to `offset` and every other key where it did. -/
def insert (m : OffsetMap) (key : Bytes) (offset : UInt32) : OffsetMap :=
  ⟨put key offset m.entries, nodup_put m.nodup⟩

/-- Where a key leads. -/
def get? (m : OffsetMap) (key : Bytes) : Option UInt32 :=
  m.entries.lookup key

/-- The keys. -/
def keys (m : OffsetMap) : List Bytes :=
  m.entries.map Prod.fst

/-- How many keys there are. -/
def size (m : OffsetMap) : Nat :=
  m.entries.length

/-- The map of a run of entries: a later entry of a key replaces an earlier one. -/
def ofList (entries : List (Bytes × UInt32)) : OffsetMap :=
  entries.foldl (fun m (key, offset) => m.insert key offset) empty

/-! ## Reading and writing -/

/-- The next entry of a payload. -/
def entry : Decoder (Bytes × UInt32) := do
  let length ← Decoder.uvarint
  let key ← Decoder.take length.toNat
  let offset ← Decoder.uvarint32
  pure (key, offset)

/-- An entry as it is written. -/
def writeEntry (key : Bytes) (offset : UInt32) : Bytes :=
  Varint.encodeNat key.length ++ key ++ Varint.encodeNat offset.toNat

/-- An entry that was read takes at least one byte. -/
theorem entry_length {b rest : Bytes} {e : Bytes × UInt32} (h : entry.run b = (.ok e, rest)) :
    rest.length < b.length := by
  obtain ⟨length, b₁, h₁, h⟩ := Decoder.run_bind_eq_ok.1 h
  obtain ⟨key, b₂, h₂, h⟩ := Decoder.run_bind_eq_ok.1 h
  obtain ⟨offset, b₃, h₃, h⟩ := Decoder.run_bind_eq_ok.1 h
  have e₁ : b₁.length < b.length := by
    rw [Decoder.run, Decoder.uvarint] at h₁
    split at h₁
    · next v used hv =>
      have hu := Varint.decode_used hv
      cases h₁
      rw [List.length_drop]
      omega
    · cases h₁
  have e₂ : b₂.length ≤ b₁.length := by
    rw [Decoder.run, Decoder.take] at h₂
    split at h₂
    · cases h₂
      rw [List.length_drop]
      omega
    · cases h₂
  have e₃ : b₃.length ≤ b₂.length := by
    obtain ⟨v, b₄, h₄, h₅⟩ := Decoder.run_bind_eq_ok.1 h₃
    rw [Decoder.run, Decoder.uvarint] at h₄
    split at h₄
    · cases h₄
      split at h₅
      · cases h₅
        rw [List.length_drop]
        omega
      · cases h₅
    · cases h₄
  cases h
  omega

/-- Reads entries until the payload is used up. -/
def readEntries (b : Bytes) : Except BlockError (List (Bytes × UInt32)) :=
  if b = [] then .ok []
  else
    match _h : entry.run b with
    | (.error e, _) => .error e
    | (.ok e, rest) =>
      match readEntries rest with
      | .error e => .error e
      | .ok es => .ok (e :: es)
  termination_by b.length
  decreasing_by exact entry_length _h

/-- The map that a payload holds. -/
def ofPayload (payload : Bytes) : Except BlockError OffsetMap :=
  (readEntries payload).map ofList

/-- The map that a section holds. -/
def ofSection (s : Section) : Except BlockError OffsetMap := do
  ofPayload (← s.standardPayload)

end OffsetMap

/-! ## Keys of several names -/

namespace Key

/-- The byte between the parts of a key. It occurs in no text. -/
def separator : UInt8 := 0xff

/-- The parts of a key, with separators between them. -/
def join : List Bytes → Bytes
  | [] => []
  | [part] => part
  | part :: more => part ++ separator :: join more

/-- The parts between the separators of a key; there is always at least one. -/
def split : Bytes → List Bytes
  | [] => [[]]
  | b :: rest =>
    if b = separator then [] :: split rest
    else
      match split rest with
      | [] => [[b]]
      | part :: more => (b :: part) :: more

end Key

end SeriesBlock
