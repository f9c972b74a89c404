import SeriesBlock.Proofs.Steps

/-!
# How reading steps fail

`FailsOnly P d` says that every failure of `d` satisfies `P`. It passes through a sequence of steps
(`failsOnly_bind`), so what a decoder may fail with is read off its steps; those that only look at how
many bytes there are fail with `invalidSize` and nothing else.
-/

set_option autoImplicit false

namespace SeriesBlock.Decoder

variable {α β : Type} {P Q : BlockError → Prop}

/-- Every failure of the decoder is of a kind. -/
def FailsOnly (P : BlockError → Prop) (d : Decoder α) : Prop :=
  ∀ ⦃b rest : Bytes⦄ ⦃e : BlockError⦄, d.run b = (.error e, rest) → P e

theorem FailsOnly.mono {d : Decoder α} (h : FailsOnly P d) (hPQ : ∀ e, P e → Q e) :
    FailsOnly Q d := by
  intro b rest e he
  exact hPQ e (h he)

theorem FailsOnly.of_eval {d : Decoder α} (h : FailsOnly P d) {b : Bytes} {e : BlockError}
    (he : d.eval b = .error e) : P e :=
  h (Prod.ext he rfl)

theorem FailsOnly.of_step {d : Decoder α} (h : FailsOnly P d) {b : Bytes} {e : BlockError}
    (he : d.step b = .error e) : P e := by
  unfold step at he
  split at he
  · cases he
  · next hr =>
    cases he
    exact h hr

theorem failsOnly_pure (a : α) : FailsOnly P (pure a) := by
  intro b rest e h
  cases h

theorem failsOnly_fail {e : BlockError} (h : P e) : FailsOnly P (fail e : Decoder α) := by
  intro b rest e' he
  cases he
  exact h

theorem failsOnly_ofExcept {r : Except BlockError α} (h : ∀ e, r = .error e → P e) :
    FailsOnly P (ofExcept r) := by
  intro b rest e he
  cases he
  exact h e rfl

/-- Steps in sequence fail as one of them does. -/
theorem failsOnly_bind {d : Decoder α} {f : α → Decoder β} (hd : FailsOnly P d)
    (hf : ∀ a, FailsOnly P (f a)) : FailsOnly P (d >>= f) := by
  intro b rest e h
  rw [run_bind] at h
  cases hr : d.run b with
  | mk r mid =>
      rw [hr] at h
      cases r with
      | ok a => exact hf a h
      | error e' =>
          cases h
          exact hd hr

theorem failsOnly_ite {c : Prop} [Decidable c] {d d' : Decoder α} (h : FailsOnly P d)
    (h' : FailsOnly P d') : FailsOnly P (if c then d else d') := by
  split
  · exact h
  · exact h'

/-! ## Steps that only look at the size -/

theorem failsOnly_take (n : Nat) : FailsOnly (· = .invalidSize) (take n) := by
  intro b rest e h
  rw [run_take] at h
  split at h
  · cases h
  · cases h
    rfl

theorem failsOnly_byte : FailsOnly (· = .invalidSize) byte := by
  intro b rest e h
  cases b with
  | nil =>
      cases h
      rfl
  | cons x b => cases h

theorem failsOnly_word32 : FailsOnly (· = .invalidSize) word32 :=
  failsOnly_bind (failsOnly_take 4) fun _ => failsOnly_pure _

theorem failsOnly_word64 : FailsOnly (· = .invalidSize) word64 :=
  failsOnly_bind (failsOnly_take 8) fun _ => failsOnly_pure _

theorem failsOnly_uvarint : FailsOnly (· = .invalidSize) uvarint := by
  intro b rest e h
  unfold run uvarint at h
  split at h
  · cases h
  · cases h
    rfl

theorem failsOnly_varint : FailsOnly (· = .invalidSize) varint := by
  intro b rest e h
  unfold run varint at h
  split at h
  · cases h
  · cases h
    rfl

theorem failsOnly_uvarint32 : FailsOnly (· = .invalidSize) uvarint32 :=
  failsOnly_bind failsOnly_uvarint fun _ => failsOnly_ite (failsOnly_pure _) (failsOnly_fail rfl)

theorem failsOnly_remaining : FailsOnly P remaining := by
  intro b rest e h
  cases h

theorem failsOnly_count (least : Nat) : FailsOnly (· = .invalidSize) (count least) :=
  failsOnly_bind failsOnly_uvarint fun _ => failsOnly_bind failsOnly_remaining fun _ =>
    failsOnly_ite (failsOnly_pure _) (failsOnly_fail rfl)

end SeriesBlock.Decoder
