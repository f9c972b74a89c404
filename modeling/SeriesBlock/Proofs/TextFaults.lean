import SeriesBlock.Proofs.Text

/-!
# Bytes that are no text

A reader of text stops where no scalar can be read, and says how far it came and what is wrong there. Both are
said here of the bytes alone. The text before is the longest that the bytes start with (`LongestText`). After it
the bytes either end inside the written form of a scalar (`BreaksOff`), or their first few begin one and the next
byte rules that out, or they begin none; what is wrong is then the longest part that begins a scalar, and one byte
at least (`MaximalSubpart`).

One scalar is settled first. What may follow a first byte can always be completed (`readFollow_complete`), so
bytes that end too early break off (`readScalar_incomplete_iff`); and a byte that is ruled out is ruled out
whatever comes after it (`exists_of_readFollow_invalid`). Text before the fault is passed over
(`scalars_append`). The main statement is `decode_eq_error_iff`, with `longestText_of_decode` for what stands before
a fault and `flaw_of_decode` for what stands after it.
-/

set_option autoImplicit false

namespace SeriesBlock.Utf8

/-! ## Parts of scalars and of text -/

/-- The bytes begin the written form of a scalar. -/
def Begins (b : Bytes) : Prop :=
  ∃ c : Char, b <+: String.utf8EncodeChar c

/-- The bytes end inside the written form of a scalar. -/
def BreaksOff (b : Bytes) : Prop :=
  ∃ c : Char, b <+: String.utf8EncodeChar c ∧ b ≠ String.utf8EncodeChar c

/-- The first `n` bytes are the longest part from the front that is text. -/
structure LongestText (b : Bytes) (n : Nat) : Prop where
  le : n ≤ b.length
  text : ∃ s, b.take n = encode s
  longest : ∀ m ≤ b.length, (∃ s, b.take m = encode s) → m ≤ n

/-- The first `k` bytes are the longest part from the front that begins a scalar, or the first byte begins none
and is a part of its own. -/
structure MaximalSubpart (b : Bytes) (k : Nat) : Prop where
  pos : 0 < k
  begins : Begins (b.take k) ∨ k = 1
  maximal : ∀ m ≤ b.length, Begins (b.take m) → m ≤ k

/-! ## What follows a first byte -/

section Follow

variable {value seen v k : Nat} {follow : List Range} {rest rest' : Bytes}

theorem length_of_readFollow (h : readFollow value seen follow rest = .ok (v, rest')) :
    rest.length = rest'.length + follow.length := by
  induction follow generalizing value seen rest with
  | nil =>
      cases h
      rfl
  | cons r follow ih =>
      obtain ⟨x, more, rfl, -, -, hmore⟩ := readFollow_cons_eq_ok h
      rw [List.length_cons, ih hmore, List.length_cons]
      rfl

/-- What was read is read in front of any bytes. -/
theorem readFollow_append_of_ok (h : readFollow value seen follow rest = .ok (v, rest')) (more : Bytes) :
    readFollow value seen follow (rest ++ more) = .ok (v, rest' ++ more) := by
  induction follow generalizing value seen rest with
  | nil =>
      cases h
      rfl
  | cons r follow ih =>
      cases rest with
      | nil => cases h
      | cons x rest =>
          rw [readFollow] at h
          split at h
          · next hadmits =>
            rw [List.cons_append, readFollow, if_pos hadmits]
            exact ih h
          · cases h

/-- **A byte is ruled out** after bytes that could have gone on, whatever comes after it. -/
theorem exists_of_readFollow_invalid (h : readFollow value seen follow rest = .error (.invalid k)) :
    ∃ pre y post, rest = pre ++ y :: post ∧ k = seen + pre.length ∧
      readFollow value seen follow pre = .error .incomplete ∧
      ∀ post', readFollow value seen follow (pre ++ y :: post') = .error (.invalid k) := by
  induction follow generalizing value seen rest with
  | nil => cases h
  | cons r follow ih =>
      cases rest with
      | nil => cases h
      | cons x rest =>
          rw [readFollow] at h
          split at h
          · next hadmits =>
            obtain ⟨pre, y, post, rfl, rfl, hpre, hpost⟩ := ih h
            refine ⟨x :: pre, y, post, rfl, ?_, ?_, ?_⟩
            · rw [List.length_cons, Nat.add_right_comm, Nat.add_assoc]
            · rw [readFollow, if_pos hadmits]
              exact hpre
            · intro post'
              rw [List.cons_append, readFollow, if_pos hadmits]
              exact hpost post'
          · next hadmits =>
            cases h
            refine ⟨[], x, rest, rfl, rfl, rfl, ?_⟩
            intro post'
            rw [List.nil_append, readFollow, if_neg hadmits]

/-- The least bytes of all ranges may follow. -/
theorem readFollow_low (value seen : Nat) {follow : List Range}
    (hlow : ∀ r ∈ follow, r.admits r.low = true) :
    ∃ v, readFollow value seen follow (follow.map Range.low) = .ok (v, []) := by
  induction follow generalizing value seen with
  | nil => exact ⟨value, rfl⟩
  | cons r follow ih =>
      rw [List.map_cons, readFollow, if_pos (hlow r List.mem_cons_self)]
      exact ih _ _ fun r' hr' => hlow r' (List.mem_cons_of_mem r hr')

/-- **Bytes that end too early can be completed.** -/
theorem readFollow_complete (hlow : ∀ r ∈ follow, r.admits r.low = true)
    (h : readFollow value seen follow rest = .error .incomplete) :
    ∃ more v, more ≠ [] ∧ readFollow value seen follow (rest ++ more) = .ok (v, []) := by
  induction follow generalizing value seen rest with
  | nil => cases h
  | cons r follow ih =>
      cases rest with
      | nil =>
          obtain ⟨v, hv⟩ := readFollow_low value seen hlow
          exact ⟨_, v, List.cons_ne_nil _ _, hv⟩
      | cons x rest =>
          rw [readFollow] at h
          split at h
          · next hadmits =>
            obtain ⟨more, v, hne, hv⟩ := ih (fun r' hr' => hlow r' (List.mem_cons_of_mem r hr')) h
            refine ⟨more, v, hne, ?_⟩
            rw [List.cons_append, readFollow, if_pos hadmits]
            exact hv
          · cases h

end Follow

/-! ## One scalar -/

section Scalar

variable {x : UInt8} {rest rest' : Bytes} {c : Char} {flaw : Flaw} {lead : Lead} {k : Nat}

/-- There are bytes in every range that a first byte asks for. -/
theorem admits_low_of_lead? (h : lead? x = some lead) : ∀ r ∈ lead.follow, r.admits r.low = true := by
  have hall : (lead.follow.all fun r => r.admits r.low) = true := by
    unfold lead? at h
    repeat' split at h
    all_goals
      cases h
      try rfl
  exact List.all_eq_true.1 hall

theorem readScalar_eq_ok_iff :
    readScalar x rest = .ok (c, rest') ↔ ∃ lead v, lead? x = some lead ∧
      readFollow lead.bits 1 lead.follow rest = .ok (v, rest') ∧ c = Char.ofNat v := by
  constructor
  · intro h
    unfold readScalar at h
    split at h
    · cases h
    · next lead hlead =>
      split at h
      · next v rest'' hfollow =>
        cases h
        exact ⟨lead, v, hlead, hfollow, rfl⟩
      · cases h
  · rintro ⟨lead, v, hlead, hfollow, rfl⟩
    exact readScalar_of_lead lead hlead hfollow

theorem readScalar_eq_error_iff :
    readScalar x rest = .error flaw ↔ (lead? x = none ∧ flaw = .invalid 1) ∨
      ∃ lead, lead? x = some lead ∧ readFollow lead.bits 1 lead.follow rest = .error flaw := by
  unfold readScalar
  cases hlead : lead? x with
  | none => simp [eq_comm]
  | some lead =>
      cases hfollow : readFollow lead.bits 1 lead.follow rest with
      | error flaw' => simp [hfollow]
      | ok p => simp [hfollow]

/-- A scalar is as long as its first byte says. -/
theorem length_of_readScalar (h : readScalar x rest = .ok (c, rest')) :
    (String.utf8EncodeChar c).length = scalarLength x := by
  have hbytes := congrArg List.length (eq_append_of_readScalar h)
  obtain ⟨lead, v, hlead, hfollow, rfl⟩ := readScalar_eq_ok_iff.1 h
  have hfollowing := length_of_readFollow hfollow
  have hlength : scalarLength x = lead.follow.length + 1 := by rw [scalarLength, hlead]
  rw [List.length_cons, List.length_append] at hbytes
  omega

theorem readScalar_append_of_ok (h : readScalar x rest = .ok (c, rest')) (more : Bytes) :
    readScalar x (rest ++ more) = .ok (c, rest' ++ more) := by
  obtain ⟨lead, v, hlead, hfollow, rfl⟩ := readScalar_eq_ok_iff.1 h
  exact readScalar_eq_ok_iff.2 ⟨lead, v, hlead, readFollow_append_of_ok hfollow more, rfl⟩

theorem readScalar_append_of_invalid (h : readScalar x rest = .error (.invalid k)) (more : Bytes) :
    readScalar x (rest ++ more) = .error (.invalid k) := by
  rcases readScalar_eq_error_iff.1 h with hnone | ⟨lead, hlead, hfollow⟩
  · exact readScalar_eq_error_iff.2 (Or.inl hnone)
  · obtain ⟨pre, y, post, rfl, -, -, hpost⟩ := exists_of_readFollow_invalid hfollow
    refine readScalar_eq_error_iff.2 (Or.inr ⟨lead, hlead, ?_⟩)
    rw [List.append_assoc, List.cons_append]
    exact hpost (post ++ more)

/-- The written form of a scalar is read as that scalar. -/
theorem readScalar_of_utf8EncodeChar (h : x :: rest = String.utf8EncodeChar c) :
    readScalar x rest = .ok (c, []) := by
  obtain ⟨y, follow, hc, hread⟩ := readScalar_utf8EncodeChar c []
  rw [← h] at hc
  cases hc
  rwa [List.append_nil] at hread

/-- Nothing is ruled out in what begins a scalar. -/
theorem Begins.ne_invalid (h : Begins (x :: rest)) : readScalar x rest ≠ .error (.invalid k) := by
  obtain ⟨c, more, hc⟩ := h
  intro hinvalid
  rw [List.cons_append] at hc
  have hread := readScalar_of_utf8EncodeChar hc
  rw [readScalar_append_of_invalid hinvalid] at hread
  cases hread

theorem BreaksOff.begins {b : Bytes} (h : BreaksOff b) : Begins b := by
  obtain ⟨c, hc, -⟩ := h
  exact ⟨c, hc⟩

/-- **A scalar ends too early exactly where the bytes end inside one.** -/
theorem readScalar_incomplete_iff :
    readScalar x rest = .error .incomplete ↔ BreaksOff (x :: rest) := by
  constructor
  · intro h
    rcases readScalar_eq_error_iff.1 h with ⟨-, hflaw⟩ | ⟨lead, hlead, hfollow⟩
    · cases hflaw
    · obtain ⟨more, v, hne, hmore⟩ := readFollow_complete (admits_low_of_lead? hlead) hfollow
      have hbytes := eq_append_of_readScalar (readScalar_of_lead lead hlead hmore)
      rw [List.append_nil] at hbytes
      refine ⟨Char.ofNat v, ⟨more, hbytes⟩, ?_⟩
      intro hwhole
      rw [← hwhole, List.cons.injEq, List.append_right_eq_self] at hbytes
      exact hne hbytes.2
  · intro h
    cases hread : readScalar x rest with
    | ok p =>
        -- a scalar that is there in full leaves nothing of a longer one
        obtain ⟨c, ⟨more, hc⟩, hne⟩ := h
        rw [List.cons_append] at hc
        have hwhole := readScalar_of_utf8EncodeChar hc
        rw [readScalar_append_of_ok hread, Except.ok.injEq, Prod.mk.injEq, List.append_eq_nil_iff] at hwhole
        rw [hwhole.2.2, List.append_nil] at hc
        exact absurd hc hne
    | error flaw =>
        cases flaw with
        | incomplete => rfl
        | invalid k => exact absurd hread h.begins.ne_invalid

/-- **What is ruled out follows a maximal part.** -/
theorem maximalSubpart_of_readScalar (h : readScalar x rest = .error (.invalid k)) :
    MaximalSubpart (x :: rest) k := by
  rcases readScalar_eq_error_iff.1 h with ⟨hnone, hflaw⟩ | ⟨lead, hlead, hfollow⟩
  · cases hflaw
    refine ⟨Nat.one_pos, Or.inr rfl, ?_⟩
    rintro (_ | m) - hbegins
    · exact Nat.zero_le 1
    · exact absurd (readScalar_eq_error_iff.2 (Or.inl ⟨hnone, rfl⟩)) hbegins.ne_invalid
  · obtain ⟨pre, y, post, rfl, rfl, hpre, hpost⟩ := exists_of_readFollow_invalid hfollow
    refine ⟨Nat.add_pos_left Nat.one_pos _, Or.inl ?_, ?_⟩
    · rw [Nat.add_comm, List.take_succ_cons, List.take_left]
      exact (readScalar_incomplete_iff.1 (readScalar_eq_error_iff.2 (Or.inr ⟨lead, hlead, hpre⟩))).begins
    · intro m _ hbegins
      refine Nat.le_of_not_lt fun hm => ?_
      -- the byte that is ruled out is among the first `m`
      obtain ⟨j, rfl⟩ : ∃ j, m = pre.length + (j + 1) + 1 := ⟨m - pre.length - 2, by omega⟩
      rw [List.take_succ_cons, List.take_length_add_append, List.take_succ_cons] at hbegins
      exact hbegins.ne_invalid (readScalar_eq_error_iff.2 (Or.inr ⟨lead, hlead, hpost _⟩))

end Scalar

/-! ## Text -/

section Text

variable {x : UInt8} {b rest rest' : Bytes} {c : Char} {flaw : Flaw} {fault : Fault} {position : Nat}

theorem scalars_cons_of_ok (h : readScalar x rest = .ok (c, rest')) :
    scalars position (x :: rest) =
      (scalars (position + (String.utf8EncodeChar c).length) rest').map (c :: ·) := by
  rw [length_of_readScalar h, scalars]
  split
  · next he =>
    rw [h] at he
    cases he
  · next he =>
    rw [h] at he
    cases he
    cases scalars (position + scalarLength x) rest' with
    | error fault => rfl
    | ok cs => rfl

theorem scalars_cons_of_error (h : readScalar x rest = .error flaw) :
    scalars position (x :: rest) = .error ⟨position, flaw⟩ := by
  rw [scalars]
  split
  · next he =>
    rw [h] at he
    cases he
    rfl
  · next he =>
    rw [h] at he
    cases he

/-- **Text is passed over**, whatever comes after it. -/
theorem scalars_append (position : Nat) (cs : List Char) (b : Bytes) :
    scalars position (cs.flatMap String.utf8EncodeChar ++ b) =
      (scalars (position + (cs.flatMap String.utf8EncodeChar).length) b).map (cs ++ ·) := by
  induction cs generalizing position with
  | nil =>
      show scalars position b = (scalars (position + 0) b).map id
      rw [Nat.add_zero, Except.map_id]
      rfl
  | cons c cs ih =>
      obtain ⟨y, follow, hc, hread⟩ :=
        readScalar_utf8EncodeChar c (cs.flatMap String.utf8EncodeChar ++ b)
      rw [List.flatMap_cons, List.append_assoc, hc, List.cons_append, scalars_cons_of_ok hread, ih,
        List.length_append, ← hc, Nat.add_assoc]
      cases scalars (position + _) b with
      | error fault => rfl
      | ok cs' => rfl

/-- **Reading stops at the first byte at which no scalar can be read**, after the scalars before it. -/
theorem scalars_eq_error_iff :
    scalars position b = .error fault ↔ ∃ (cs : List Char) (x : UInt8) (rest : Bytes),
      b = cs.flatMap String.utf8EncodeChar ++ x :: rest ∧ readScalar x rest = .error fault.flaw ∧
      fault.validUpTo = position + (cs.flatMap String.utf8EncodeChar).length := by
  constructor
  · intro h
    induction position, b using scalars.induct with
    | case1 position =>
        rw [scalars] at h
        cases h
    | case2 position x rest flaw hread =>
        rw [scalars_cons_of_error hread] at h
        cases h
        exact ⟨[], x, rest, rfl, hread, rfl⟩
    | case3 position x rest c rest' hread fault' hmore ih =>
        rw [scalars_cons_of_ok hread, length_of_readScalar hread, hmore] at h
        cases h
        obtain ⟨cs, y, post, rfl, hflaw, hposition⟩ := ih hmore
        refine ⟨c :: cs, y, post, ?_, hflaw, ?_⟩
        · rw [List.flatMap_cons, List.append_assoc, eq_append_of_readScalar hread]
        · rw [List.flatMap_cons, List.length_append, length_of_readScalar hread, ← Nat.add_assoc]
          exact hposition
    | case4 position x rest c rest' hread cs hmore ih =>
        rw [scalars_cons_of_ok hread, length_of_readScalar hread, hmore] at h
        cases h
  · rintro ⟨cs, x, rest, rfl, hflaw, hposition⟩
    rw [scalars_append, scalars_cons_of_error hflaw, ← hposition]
    rfl

/-- Bytes are read as a text exactly if they are its written form. -/
theorem decode_eq_ok_iff {s : String} : decode b = .ok s ↔ b = encode s := by
  constructor
  · intro h
    exact (encode_of_decode h).symm
  · rintro rfl
    exact decode_encode s

/-- **A fault stands behind a text**, where no scalar can be read. -/
theorem decode_eq_error_iff :
    decode b = .error fault ↔ ∃ s x rest, b = encode s ++ x :: rest ∧
      readScalar x rest = .error fault.flaw ∧ fault.validUpTo = (encode s).length := by
  have hscalars : decode b = .error fault ↔ scalars 0 b = .error fault := by
    rw [decode]
    cases scalars 0 b with
    | ok cs => exact iff_of_false nofun nofun
    | error fault' => simp [Except.map]
  rw [hscalars, scalars_eq_error_iff]
  constructor
  · rintro ⟨cs, x, rest, hb, hflaw, hposition⟩
    have hencode : encode (String.ofList cs) = cs.flatMap String.utf8EncodeChar := by
      rw [encode, String.toList_ofList]
    rw [← hencode] at hb hposition
    exact ⟨String.ofList cs, x, rest, hb, hflaw, hposition.trans (Nat.zero_add _)⟩
  · rintro ⟨s, x, rest, hb, hflaw, hposition⟩
    exact ⟨s.toList, x, rest, hb, hflaw, hposition.trans (Nat.zero_add _).symm⟩

/-- **The text before a fault is the longest.** A longer one would read a scalar where none can be read. -/
theorem longestText_of_decode (h : decode b = .error fault) : LongestText b fault.validUpTo := by
  obtain ⟨s, x, rest, rfl, hflaw, hposition⟩ := decode_eq_error_iff.1 h
  rw [hposition]
  refine ⟨?_, ⟨s, List.take_left⟩, ?_⟩
  · rw [List.length_append]
    exact Nat.le_add_right _ _
  · rintro m - ⟨s', hs'⟩
    refine Nat.le_of_not_lt fun hm => ?_
    obtain ⟨j, rfl⟩ : ∃ j, m = (encode s).length + (j + 1) := ⟨m - (encode s).length - 1, by omega⟩
    rw [List.take_length_add_append, List.take_succ_cons] at hs'
    have hread := decode_encode s'
    cases hscalar : readScalar x (rest.take j) with
    | error flaw =>
        have hfails : decode (encode s') = .error ⟨(encode s).length, flaw⟩ :=
          decode_eq_error_iff.2 ⟨s, x, rest.take j, hs'.symm, hscalar, rfl⟩
        rw [hread] at hfails
        cases hfails
    | ok p =>
        have hmore := readScalar_append_of_ok hscalar (rest.drop j)
        rw [List.take_append_drop, hflaw] at hmore
        cases hmore

/-- **What is wrong after the text**: the bytes end inside a scalar, or a maximal part is ruled out. -/
theorem flaw_of_decode (h : decode b = .error fault) :
    (fault.flaw = .incomplete ∧ BreaksOff (b.drop fault.validUpTo)) ∨
      ∃ k, fault.flaw = .invalid k ∧ ¬ BreaksOff (b.drop fault.validUpTo) ∧
        MaximalSubpart (b.drop fault.validUpTo) k := by
  obtain ⟨s, x, rest, rfl, hflaw, hposition⟩ := decode_eq_error_iff.1 h
  rw [hposition, List.drop_left]
  cases he : fault.flaw with
  | incomplete =>
      rw [he] at hflaw
      exact Or.inl ⟨rfl, readScalar_incomplete_iff.1 hflaw⟩
  | invalid k =>
      rw [he] at hflaw
      refine Or.inr ⟨k, rfl, fun hbreaks => ?_, maximalSubpart_of_readScalar hflaw⟩
      exact hbreaks.begins.ne_invalid hflaw

end Text

end SeriesBlock.Utf8
