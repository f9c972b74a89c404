import Mathlib.Algebra.Group.Nat.Defs
import SeriesBlock.Decoder

/-!
# What the reading steps accept

Each step of fixed form succeeds exactly on the byte strings that start with what it reads: `take`
on any `n` bytes, `byte` on one, `word32` and `word64` on the big-endian form of a word
(`run_word32_eq_ok`, `run_word64_eq_ok`). Reading and writing a word are therefore inverse in both
directions. The steps of variable form succeed exactly where `Varint.decode` does.

`Uses d k` says that a success of `d` takes at least `k` bytes. It adds up over a sequence of steps
(`uses_bind`), so the number of elements that a decoder reads is bounded by the bytes it was given.
-/

set_option autoImplicit false

namespace SeriesBlock

/-- Outcomes in sequence succeed only if each does. -/
theorem except_bind_eq_ok {ε α β : Type} {r : Except ε α} {f : α → Except ε β} {c : β} :
    (r >>= f) = .ok c ↔ ∃ a, r = .ok a ∧ f a = .ok c := by
  cases r with
  | ok a =>
      constructor
      · intro h
        exact ⟨a, rfl, h⟩
      · rintro ⟨a', ha, h⟩
        cases ha
        exact h
  | error e =>
      constructor
      · intro h
        cases h
      · rintro ⟨a, ha, -⟩
        cases ha

/-- Outcomes in sequence fail as the first that does. -/
theorem except_bind_eq_error {ε α β : Type} {r : Except ε α} {f : α → Except ε β} {e : ε} :
    (r >>= f) = .error e ↔ r = .error e ∨ ∃ a, r = .ok a ∧ f a = .error e := by
  cases r with
  | ok a =>
      constructor
      · intro h
        exact Or.inr ⟨a, rfl, h⟩
      · rintro (h | ⟨a', ha, h⟩)
        · cases h
        · cases ha
          exact h
  | error e' =>
      constructor
      · intro h
        cases h
        exact Or.inl rfl
      · rintro (h | ⟨a, ha, -⟩)
        · cases h
          rfl
        · cases ha

/-- What has one way to fail fails exactly where it does not succeed. -/
theorem except_eq_error_iff {ε α : Type} {r : Except ε α} {e₀ e : ε}
    (h : ∀ e, r = .error e → e = e₀) : r = .error e ↔ (¬ ∃ a, r = .ok a) ∧ e = e₀ := by
  cases r with
  | ok a =>
      constructor
      · intro he
        cases he
      · rintro ⟨hnone, -⟩
        exact absurd ⟨a, rfl⟩ hnone
  | error e' =>
      have he' := h e' rfl
      subst he'
      constructor
      · intro he
        cases he
        refine ⟨?_, rfl⟩
        rintro ⟨a, ha⟩
        cases ha
      · rintro ⟨-, rfl⟩
        rfl

/-- A function succeeds on a list exactly if it does on every element, with the values in order. -/
theorem except_mapM_eq_ok_iff {ε α β : Type} {f : α → Except ε β} {l : List α} {values : List β} :
    l.mapM f = .ok values ↔ l.map f = values.map .ok := by
  induction l generalizing values with
  | nil =>
      cases values with
      | nil => exact iff_of_true rfl rfl
      | cons v values => exact iff_of_false nofun nofun
  | cons a l ih =>
      rw [List.mapM_cons, except_bind_eq_ok]
      constructor
      · rintro ⟨v, ha, h⟩
        obtain ⟨more, hmore, h⟩ := except_bind_eq_ok.1 h
        cases h
        rw [List.map_cons, List.map_cons, ha, ih.1 hmore]
      · intro h
        cases values with
        | nil => cases h
        | cons v values =>
            rw [List.map_cons, List.map_cons, List.cons.injEq] at h
            exact ⟨v, h.1, except_bind_eq_ok.2 ⟨values, ih.2 h.2, rfl⟩⟩

/-- A function succeeds on every row exactly if it does on every element of every row. -/
theorem except_map_mapM_eq_ok_iff {ε α β : Type} {f : α → Except ε β} {rows : List (List α)}
    {values : List (List β)} :
    rows.map (List.mapM f) = values.map .ok ↔ rows.map (List.map f) = values.map (List.map .ok) := by
  induction rows generalizing values with
  | nil => cases values <;> simp
  | cons row rows ih =>
      cases values with
      | nil => simp
      | cons v values => simp [except_mapM_eq_ok_iff, ih]

/-- A function of numbers succeeds up to a bound with a list of its values there. -/
theorem except_mapM_range_eq_ok_iff {ε β : Type} {f : Nat → Except ε β} {n : Nat} {values : List β} :
    (List.range n).mapM f = .ok values ↔
      values.length = n ∧ ∀ k v, values[k]? = some v → f k = .ok v := by
  rw [except_mapM_eq_ok_iff]
  constructor
  · intro h
    have hlength : values.length = n := by
      have hlengths := congrArg List.length h
      rw [List.length_map, List.length_map, List.length_range] at hlengths
      exact hlengths.symm
    refine ⟨hlength, fun k v hv => ?_⟩
    obtain ⟨hk, -⟩ := List.getElem?_eq_some_iff.1 hv
    have hget := congrArg (·[k]?) h
    simp only [List.getElem?_map, List.getElem?_range (hlength ▸ hk), hv, Option.map_some,
      Option.some.injEq] at hget
    exact hget
  · rintro ⟨rfl, h⟩
    apply List.ext_getElem
    · rw [List.length_map, List.length_map, List.length_range]
    · intro k _ hk
      rw [List.length_map] at hk
      rw [List.getElem_map, List.getElem_map, List.getElem_range]
      exact h k values[k] (List.getElem?_eq_getElem hk)

/-- Where a function succeeds on every element of a list, it does on the list. -/
theorem except_mapM_eq_ok {ε α β : Type} {f : α → Except ε β} {g : α → β} {l : List α}
    (h : ∀ a ∈ l, f a = .ok (g a)) : l.mapM f = .ok (l.map g) := by
  rw [except_mapM_eq_ok_iff, List.map_map]
  exact List.map_congr_left h

/-- What takes each value back to its element takes the values back to the list. -/
theorem except_map_of_mapM {ε α β : Type} {f : α → Except ε β} {g : β → α} {l : List α}
    {values : List β} (hg : ∀ a v, f a = .ok v → g v = a) (h : l.mapM f = .ok values) :
    values.map g = l := by
  induction l generalizing values with
  | nil =>
      cases h
      rfl
  | cons a l ih =>
      rw [List.mapM_cons] at h
      obtain ⟨v, ha, h⟩ := except_bind_eq_ok.1 h
      obtain ⟨more, hmore, h⟩ := except_bind_eq_ok.1 h
      cases h
      rw [List.map_cons, hg a v ha, ih hmore]

/-! ## Words -/

namespace Bytes

/-- The first of `w + 1` bytes counts for `256 ^ w`. -/
theorem bigEndian_succ (w n : Nat) :
    bigEndian (w + 1) n = UInt8.ofNat (n / 256 ^ w) :: bigEndian w n := by
  rw [bigEndian, Nat.shiftRight_eq_div_pow, Nat.pow_mul]

/-- Reading digits after a number already read shifts that number up. -/
theorem foldl_digits (b : Bytes) (m : Nat) :
    b.foldl (fun n x => 256 * n + x.toNat) m = 256 ^ b.length * m + toNat b := by
  unfold toNat
  induction b generalizing m with
  | nil => simp
  | cons x b ih =>
    rw [List.foldl_cons, ih, List.foldl_cons, ih (256 * 0 + x.toNat), List.length_cons, Nat.pow_succ,
      Nat.mul_add, Nat.mul_zero, Nat.zero_add, Nat.mul_assoc, Nat.add_assoc]

/-- The first digit counts for a whole power of 256. -/
theorem toNat_cons (x : UInt8) (b : Bytes) :
    toNat (x :: b) = 256 ^ b.length * x.toNat + toNat b := by
  have h := foldl_digits b (256 * 0 + x.toNat)
  rw [Nat.mul_zero, Nat.zero_add] at h
  rw [← h]
  simp [toNat]

/-- **Reading back what was written** gives the number modulo the width. -/
theorem toNat_bigEndian (w n : Nat) : toNat (bigEndian w n) = n % 256 ^ w := by
  induction w with
  | zero => simp [bigEndian, toNat, Nat.mod_one]
  | succ w ih =>
    rw [bigEndian_succ, toNat_cons, ih, length_bigEndian, Nat.pow_succ, Nat.mod_mul]
    have h : (UInt8.ofNat (n / 256 ^ w)).toNat = n / 256 ^ w % 256 := by simp
    rw [h, Nat.add_comm]

/-- The digits of a run of bytes stay below the next power of 256. -/
theorem toNat_lt (b : Bytes) : toNat b < 256 ^ b.length := by
  induction b with
  | nil => simp [toNat]
  | cons x b ih =>
    have hx : x.toNat < 256 := UInt8.toNat_lt x
    have hm : 256 ^ b.length * (x.toNat + 1) ≤ 256 ^ b.length * 256 := Nat.mul_le_mul_left _ hx
    rw [toNat_cons, List.length_cons, Nat.pow_succ]
    rw [Nat.mul_add, Nat.mul_one] at hm
    omega

/-- Only the digits below the width count. -/
theorem bigEndian_add_mul (w n k : Nat) : bigEndian w (n + 256 ^ w * k) = bigEndian w n := by
  induction w generalizing k with
  | zero => rfl
  | succ w ih =>
    have e : n + 256 ^ (w + 1) * k = n + 256 ^ w * (256 * k) := by
      rw [Nat.pow_succ, Nat.mul_assoc]
    have hd : UInt8.ofNat ((n + 256 ^ w * (256 * k)) / 256 ^ w) = UInt8.ofNat (n / 256 ^ w) := by
      rw [Nat.add_mul_div_left _ _ (Nat.pow_pos (by omega))]
      apply UInt8.toNat_inj.1
      simp
    rw [bigEndian_succ, bigEndian_succ, e, ih, hd]

/-- **Writing what was read** gives the bytes back. -/
theorem bigEndian_toNat (b : Bytes) : bigEndian b.length (toNat b) = b := by
  induction b with
  | nil => rfl
  | cons x b ih =>
    have hlt := toNat_lt b
    have hd : (256 ^ b.length * x.toNat + toNat b) / 256 ^ b.length = x.toNat := by
      rw [Nat.mul_add_div (Nat.pow_pos (by omega)), Nat.div_eq_of_lt hlt, Nat.add_zero]
    rw [toNat_cons, List.length_cons, bigEndian_succ, hd, Nat.add_comm, bigEndian_add_mul, ih]
    simp

@[simp]
theorem length_ofWord32 (v : UInt32) : (ofWord32 v).length = 4 :=
  length_bigEndian 4 _

@[simp]
theorem length_ofWord64 (v : UInt64) : (ofWord64 v).length = 8 :=
  length_bigEndian 8 _

@[simp]
theorem toNat_ofWord32 (v : UInt32) : toNat (ofWord32 v) = v.toNat := by
  have hv : v.toNat < 256 ^ 4 := v.toNat_lt
  rw [ofWord32, toNat_bigEndian, Nat.mod_eq_of_lt hv]

theorem ofNat_toNat_ofWord32 (v : UInt32) : UInt32.ofNat (toNat (ofWord32 v)) = v := by
  rw [toNat_ofWord32, UInt32.ofNat_toNat]

/-- Different words differ in their bytes. -/
theorem ofWord32_inj {v w : UInt32} (h : ofWord32 v = ofWord32 w) : v = w := by
  rw [← ofNat_toNat_ofWord32 v, h, ofNat_toNat_ofWord32]

@[simp]
theorem ofNat_toNat_ofWord64 (v : UInt64) : UInt64.ofNat (toNat (ofWord64 v)) = v := by
  have hv : v.toNat < 256 ^ 8 := v.toNat_lt
  rw [ofWord64, toNat_bigEndian, Nat.mod_eq_of_lt hv, UInt64.ofNat_toNat]

theorem ofWord32_ofNat_toNat {b : Bytes} (h : b.length = 4) :
    ofWord32 (UInt32.ofNat (toNat b)) = b := by
  have hlt : toNat b < 2 ^ 32 := by
    have := toNat_lt b
    rw [h] at this
    exact this
  rw [ofWord32, UInt32.toNat_ofNat_of_lt' hlt, ← h, bigEndian_toNat]

theorem ofWord64_ofNat_toNat {b : Bytes} (h : b.length = 8) :
    ofWord64 (UInt64.ofNat (toNat b)) = b := by
  have hlt : toNat b < 2 ^ 64 := by
    have := toNat_lt b
    rw [h] at this
    exact this
  rw [ofWord64, UInt64.toNat_ofNat_of_lt' hlt, ← h, bigEndian_toNat]

/-! ## Positions -/

/-- What follows a prefix is the tail from its length on. -/
theorem tailFrom_append {pre post : Bytes} {n : Nat} (h : pre.length = n) :
    tailFrom (pre ++ post) n = .ok post := by
  subst h
  rw [tailFrom, if_pos (by simp), List.drop_left]

/-- A tail starts at a position of the buffer. -/
theorem tailFrom_eq_ok {b post : Bytes} {n : Nat} :
    tailFrom b n = .ok post ↔ ∃ pre, b = pre ++ post ∧ pre.length = n := by
  constructor
  · intro h
    unfold tailFrom at h
    split at h
    · next hn =>
      cases h
      exact ⟨b.take n, (List.take_append_drop n b).symm, List.length_take_of_le hn⟩
    · cases h
  · rintro ⟨pre, rfl, hn⟩
    exact tailFrom_append hn

/-- A position outside the buffer is a fault of size. -/
theorem eq_invalidSize_of_tailFrom {b : Bytes} {n : Nat} {e : BlockError}
    (h : tailFrom b n = .error e) : e = .invalidSize := by
  unfold tailFrom at h
  split at h
  · cases h
  · cases h
    rfl

end Bytes

namespace Decoder

open Bytes

variable {α β : Type}

/-! ## Steps of fixed form -/

theorem run_take (n : Nat) (b : Bytes) :
    (take n).run b = if n ≤ b.length then (.ok (b.take n), b.drop n) else (.error .invalidSize, b) :=
  rfl

/-- `take` succeeds exactly on what starts with that many bytes. -/
theorem run_take_eq_ok {n : Nat} {b w rest : Bytes} :
    (take n).run b = (.ok w, rest) ↔ b = w ++ rest ∧ w.length = n := by
  rw [run_take]
  constructor
  · intro h
    split at h
    · next hn =>
      cases h
      exact ⟨(List.take_append_drop n b).symm, List.length_take_of_le hn⟩
    · cases h
  · rintro ⟨rfl, rfl⟩
    simp

/-- `byte` succeeds exactly on what is not empty. -/
theorem run_byte_eq_ok {b rest : Bytes} {x : UInt8} :
    byte.run b = (.ok x, rest) ↔ b = x :: rest := by
  cases b with
  | nil => simp [run, byte]
  | cons y b => simp [run, byte]

/-- `word32` succeeds exactly on what starts with the four bytes of a word. -/
theorem run_word32_eq_ok {b rest : Bytes} {v : UInt32} :
    word32.run b = (.ok v, rest) ↔ b = ofWord32 v ++ rest := by
  constructor
  · intro h
    obtain ⟨w, mid, hw, hv⟩ := run_bind_eq_ok.1 h
    obtain ⟨rfl, hl⟩ := run_take_eq_ok.1 hw
    cases hv
    rw [ofWord32_ofNat_toNat hl]
  · rintro rfl
    refine run_bind_eq_ok.2 ⟨ofWord32 v, rest, run_take_eq_ok.2 ⟨rfl, length_ofWord32 v⟩, ?_⟩
    rw [run_pure, ofNat_toNat_ofWord32]

theorem run_take_of_short {n : Nat} {b : Bytes} (h : b.length < n) :
    (take n).run b = (.error .invalidSize, b) := by
  rw [run_take, if_neg (by omega)]

theorem run_word32_of_short {b : Bytes} (h : b.length < 4) :
    word32.run b = (.error .invalidSize, b) :=
  run_bind_error (run_take_of_short h)

/-- Four bytes are there to be read as a word. -/
theorem exists_word32 {b : Bytes} (h : 4 ≤ b.length) : ∃ v rest, b = ofWord32 v ++ rest := by
  refine ⟨UInt32.ofNat (toNat (b.take 4)), b.drop 4, ?_⟩
  rw [ofWord32_ofNat_toNat (List.length_take_of_le h), List.take_append_drop]

/-- `word64` succeeds exactly on what starts with the eight bytes of a word. -/
theorem run_word64_eq_ok {b rest : Bytes} {v : UInt64} :
    word64.run b = (.ok v, rest) ↔ b = ofWord64 v ++ rest := by
  constructor
  · intro h
    obtain ⟨w, mid, hw, hv⟩ := run_bind_eq_ok.1 h
    obtain ⟨rfl, hl⟩ := run_take_eq_ok.1 hw
    cases hv
    rw [ofWord64_ofNat_toNat hl]
  · rintro rfl
    refine run_bind_eq_ok.2 ⟨ofWord64 v, rest, run_take_eq_ok.2 ⟨rfl, length_ofWord64 v⟩, ?_⟩
    rw [run_pure, ofNat_toNat_ofWord64]

theorem bind_pure_self (d : Decoder α) : (d >>= pure) = d := by
  funext b
  show (d >>= pure).run b = d.run b
  rcases h : d.run b with ⟨r, rest⟩
  cases r with
  | ok a => rw [run_bind_ok h, run_pure]
  | error e => rw [run_bind_error h]

/-- Steps in sequence may be grouped as one likes. -/
theorem bind_bind {γ : Type} (d : Decoder α) (f : α → Decoder β) (g : β → Decoder γ) :
    (d >>= f >>= g) = d >>= fun a => f a >>= g := by
  funext b
  show (d >>= f >>= g).run b = (d >>= fun a => f a >>= g).run b
  rcases h : d.run b with ⟨r, rest⟩
  cases r with
  | ok a => rw [run_bind_ok h, run_bind, run_bind_ok h, run_bind]
  | error e => rw [run_bind_error h, run_bind_error (run_bind_error h)]

instance : LawfulMonad Decoder :=
  LawfulMonad.mk' Decoder bind_pure_self (fun _ _ => rfl) bind_bind

/-- The outcome of a run that succeeds, without what it leaves. -/
theorem eval_of_run {d : Decoder α} {b rest : Bytes} {r : Except BlockError α}
    (h : d.run b = (r, rest)) : d.eval b = r := by
  rw [eval, h]

theorem eval_eq_ok {d : Decoder α} {b : Bytes} {a : α} :
    d.eval b = .ok a ↔ ∃ rest, d.run b = (.ok a, rest) := by
  constructor
  · intro h
    exact ⟨(d.run b).2, Prod.ext h rfl⟩
  · rintro ⟨rest, h⟩
    exact eval_of_run h

/-- The outcome of a run together with what it leaves; what a failure leaves is dropped. -/
def step (d : Decoder α) (b : Bytes) : Except BlockError (α × Bytes) :=
  match d.run b with
  | (.ok a, rest) => .ok (a, rest)
  | (.error e, _) => .error e

theorem step_eq_ok {d : Decoder α} {b rest : Bytes} {a : α} :
    d.step b = .ok (a, rest) ↔ d.run b = (.ok a, rest) := by
  unfold step
  rcases d.run b with ⟨r, mid⟩
  cases r with
  | ok a' => simp
  | error e => simp

theorem step_of_run_error {d : Decoder α} {b rest : Bytes} {e : BlockError}
    (h : d.run b = (.error e, rest)) : d.step b = .error e := by
  rw [step, h]

theorem step_bind (d : Decoder α) (f : α → Decoder β) (b : Bytes) :
    (d >>= f).step b = d.step b >>= fun p => (f p.1).step p.2 := by
  unfold step
  rw [run_bind]
  rcases d.run b with ⟨r, mid⟩
  cases r with
  | ok a => rfl
  | error e => rfl

theorem eval_eq_step (d : Decoder α) (b : Bytes) : d.eval b = d.step b >>= fun p => .ok p.1 := by
  unfold eval step
  rcases d.run b with ⟨r, mid⟩
  cases r with
  | ok a => rfl
  | error e => rfl

theorem eval_bind (d : Decoder α) (f : α → Decoder β) (b : Bytes) :
    (d >>= f).eval b = d.step b >>= fun p => (f p.1).eval p.2 := by
  rw [eval_eq_step, step_bind]
  cases d.step b with
  | error e => rfl
  | ok p => exact (eval_eq_step (f p.1) p.2).symm

/-- An outcome that takes no bytes succeeds where it is. -/
theorem run_ofExcept_eq_ok {r : Except BlockError α} {b rest : Bytes} {a : α} :
    (ofExcept r).run b = (.ok a, rest) ↔ r = .ok a ∧ rest = b := by
  rw [run_ofExcept, Prod.mk.injEq, eq_comm (a := b)]

/-! ## Steps of variable form -/

theorem run_uvarint_eq_ok {b rest : Bytes} {v : UInt64} :
    uvarint.run b = (.ok v, rest) ↔ ∃ used, Varint.decode b = some (v, used) ∧ rest = b.drop used := by
  unfold run uvarint
  cases h : Varint.decode b with
  | none => simp
  | some p =>
      obtain ⟨v', used⟩ := p
      simp only [Prod.mk.injEq, Except.ok.injEq, Option.some.injEq]
      constructor
      · rintro ⟨rfl, rfl⟩
        exact ⟨used, ⟨rfl, rfl⟩, rfl⟩
      · rintro ⟨_, ⟨rfl, rfl⟩, rfl⟩
        exact ⟨rfl, rfl⟩

theorem run_varint_eq_ok {b rest : Bytes} {x : Int64} :
    varint.run b = (.ok x, rest) ↔
      ∃ used, Varint.decodeSigned b = some (x, used) ∧ rest = b.drop used := by
  unfold run varint
  cases h : Varint.decodeSigned b with
  | none => simp
  | some p =>
      obtain ⟨x', used⟩ := p
      simp only [Prod.mk.injEq, Except.ok.injEq, Option.some.injEq]
      constructor
      · rintro ⟨rfl, rfl⟩
        exact ⟨used, ⟨rfl, rfl⟩, rfl⟩
      · rintro ⟨_, ⟨rfl, rfl⟩, rfl⟩
        exact ⟨rfl, rfl⟩

/-- `uvarint32` succeeds exactly on an unsigned number that fits 32 bits. -/
theorem run_uvarint32_eq_ok {b rest : Bytes} {v : UInt32} :
    uvarint32.run b = (.ok v, rest) ↔
      ∃ u : UInt64, uvarint.run b = (.ok u, rest) ∧ u.toNat = v.toNat := by
  constructor
  · intro h
    obtain ⟨u, mid, hu, h⟩ := run_bind_eq_ok.1 h
    split at h
    · next hlt =>
      cases h
      exact ⟨u, hu, (UInt32.toNat_ofNat_of_lt' hlt).symm⟩
    · cases h
  · rintro ⟨u, hu, hv⟩
    refine run_bind_eq_ok.2 ⟨u, rest, hu, ?_⟩
    have hlt : u.toNat < UInt32.size := by
      rw [hv]
      exact v.toNat_lt
    rw [if_pos hlt, run_pure, hv, UInt32.ofNat_toNat]

/-- A number of elements is checked after it has been read. -/
theorem run_count_of_uvarint (least : Nat) {b rest : Bytes} {u : UInt64}
    (h : uvarint.run b = (.ok u, rest)) :
    (count least).run b =
      if u.toNat ≤ rest.length / max least 1 then (.ok u.toNat, rest) else (.error .invalidSize, rest) := by
  have hleft : remaining.run rest = (.ok rest.length, rest) := rfl
  rw [count, run_bind_ok h, run_bind_ok hleft]
  split
  · rfl
  · rfl

/-- A declared number is accepted exactly when the bytes after it can hold as many elements. -/
theorem run_count_eq_ok {least n : Nat} {b rest : Bytes} :
    (count least).run b = (.ok n, rest) ↔
      ∃ u : UInt64, uvarint.run b = (.ok u, rest) ∧ u.toNat = n ∧
        u.toNat ≤ rest.length / max least 1 := by
  constructor
  · intro h
    obtain ⟨u, mid, hu, -⟩ := run_bind_eq_ok.1 h
    rw [run_count_of_uvarint least hu] at h
    split at h
    · next hle =>
      cases h
      exact ⟨u, hu, rfl, hle⟩
    · cases h
  · rintro ⟨u, hu, rfl, hle⟩
    rw [run_count_of_uvarint least hu, if_pos hle]

/-! ## How much is used -/

/-- A success of the decoder takes at least `k` bytes. -/
def Uses (d : Decoder α) (k : Nat) : Prop :=
  ∀ ⦃b rest : Bytes⦄ ⦃a : α⦄, d.run b = (.ok a, rest) → rest.length + k ≤ b.length

theorem uses_pure (a : α) : Uses (pure a) 0 := by
  intro b rest a' h
  cases h
  exact Nat.le_refl _

theorem uses_ofExcept (r : Except BlockError α) : Uses (ofExcept r) 0 := by
  intro b rest a h
  obtain ⟨-, rfl⟩ := run_ofExcept_eq_ok.1 h
  exact Nat.le_refl _

/-- Steps in sequence use what each of them uses. -/
theorem uses_bind {d : Decoder α} {f : α → Decoder β} {j k : Nat} (hd : Uses d j)
    (hf : ∀ a, Uses (f a) k) : Uses (d >>= f) (j + k) := by
  intro b rest c h
  obtain ⟨a, mid, ha, hc⟩ := run_bind_eq_ok.1 h
  have h₁ := hd ha
  have h₂ := hf a hc
  omega

theorem uses_uvarint : Uses uvarint 1 := by
  intro b rest v h
  obtain ⟨used, hv, rfl⟩ := run_uvarint_eq_ok.1 h
  have := Varint.decode_used hv
  rw [List.length_drop]
  omega

theorem uses_varint : Uses varint 1 := by
  intro b rest x h
  obtain ⟨used, hv, rfl⟩ := run_varint_eq_ok.1 h
  have := Varint.decodeSigned_used hv
  rw [List.length_drop]
  omega

theorem uses_count (least : Nat) : Uses (count least) 1 := by
  intro b rest n h
  obtain ⟨u, hu, -⟩ := run_count_eq_ok.1 h
  exact uses_uvarint hu

theorem uses_uvarint32 : Uses uvarint32 1 := by
  intro b rest v h
  obtain ⟨u, hu, -⟩ := run_uvarint32_eq_ok.1 h
  exact uses_uvarint hu

/-- A number of elements passes the check if what follows it can be read, and uses what the check demands. -/
theorem run_count_of_uses {d : Decoder α} {least : Nat} {b mid rest : Bytes} {u : UInt64} {a : α}
    (hleast : 0 < least) (hu : uvarint.run b = (.ok u, mid)) (hd : Uses d (least * u.toNat))
    (h : d.run mid = (.ok a, rest)) : (count least).run b = (.ok u.toNat, mid) := by
  have hused := hd h
  have hle : u.toNat ≤ mid.length / max least 1 := by
    rw [Nat.max_eq_left hleast, Nat.le_div_iff_mul_le hleast, Nat.mul_comm]
    omega
  rw [run_count_of_uvarint least hu, if_pos hle]

end Decoder

/-- The word that stands at a position of a buffer. -/
theorem Bytes.word32At_append (pre : Bytes) (v : UInt32) (post : Bytes) {n : Nat}
    (h : pre.length = n) :
    word32At (pre ++ (ofWord32 v ++ post)) n = .ok v := by
  unfold word32At
  rw [tailFrom_append h]
  exact Decoder.eval_of_run (Decoder.run_word32_eq_ok.2 rfl)

end SeriesBlock
