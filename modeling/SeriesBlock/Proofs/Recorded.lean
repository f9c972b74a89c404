import SeriesBlock.Journal

/-!
# Results of recorded operations

What an operation writes into its journal has no influence on its result: the results of operations
in sequence are those of the operations (`result_bind`), and reporting an error keeps it. The journal
of an operation whose outcome is only put into another form stays as it is (`bind_pure_eq`), and so
does that of an operation before others that write nothing (`journal_bind_of_silent`).
-/

set_option autoImplicit false

namespace SeriesBlock.Recorded

variable {α β : Type}

theorem result_bind (r : Recorded α) (f : α → Recorded β) :
    (r >>= f).result = r.result >>= fun a => (f a).result := by
  rcases r with ⟨result, journal⟩
  cases result with
  | ok a => rfl
  | error e => rfl

theorem bind_of_ok {r : Recorded α} {a : α} (h : r.result = .ok a) (f : α → Recorded β) :
    r >>= f = ⟨(f a).result, r.journal ++ (f a).journal⟩ :=
  andThen_ok h f

theorem bind_of_error {r : Recorded α} {e : BlockError} (h : r.result = .error e)
    (f : α → Recorded β) : r >>= f = ⟨.error e, r.journal⟩ :=
  andThen_error h f

theorem bind_pure_eq (r : Recorded α) (f : α → β) :
    (r >>= fun a => pure (f a)) = ⟨r.result.map f, r.journal⟩ := by
  rcases r with ⟨result, journal⟩
  cases result with
  | ok a =>
      rw [bind_of_ok rfl, pure_def, List.append_nil]
      rfl
  | error e => rfl

theorem result_bind_pure {r : Recorded α} {outcome : Except BlockError α} (h : r.result = outcome) (f : α → β) :
    (r >>= fun a => pure (f a)).result = outcome.map f := by
  rw [bind_pure_eq, h]

/-- An outcome that is put into another form and then into a third is put into the third. -/
theorem bind_pure_bind_pure {γ : Type} (r : Recorded α) (f : α → β) (g : β → γ) :
    ((r >>= fun a => pure (f a)) >>= fun b => pure (g b)) = r >>= fun a => pure (g (f a)) := by
  rw [bind_pure_eq, bind_pure_eq, bind_pure_eq]
  cases r.result with
  | ok a => rfl
  | error e => rfl

/-- What is put into another form was there before. -/
theorem exists_of_bind_pure_eq_ok {r : Recorded α} {f : α → β} {b : β}
    (h : (r >>= fun a => pure (f a)).result = .ok b) : ∃ a, r.result = .ok a ∧ b = f a := by
  rw [bind_pure_eq] at h
  cases hr : r.result with
  | ok a =>
      rw [hr] at h
      cases h
      exact ⟨a, rfl, rfl⟩
  | error e =>
      rw [hr] at h
      cases h

/-- What writes nothing leaves the journal as it is. -/
theorem journal_bind_of_silent {r : Recorded α} {f : α → Recorded β}
    (h : ∀ a, (f a).journal = []) : (r >>= f).journal = r.journal := by
  cases hr : r.result with
  | ok a => rw [bind_of_ok hr, h a, List.append_nil]
  | error e => rw [bind_of_error hr]

theorem onError_of_ok {r : Recorded α} {a : α} (h : r.result = .ok a) (f : BlockError → Journal) :
    r.onError f = r := by
  rw [onError, h]

theorem onError_of_error {r : Recorded α} {e : BlockError} (h : r.result = .error e)
    (f : BlockError → Journal) : r.onError f = ⟨.error e, r.journal ++ f e⟩ := by
  rw [onError, h]

@[simp]
theorem result_ofExcept (r : Except BlockError α) : (ofExcept r).result = r :=
  rfl

@[simp]
theorem result_onError (r : Recorded α) (f : BlockError → Journal) :
    (r.onError f).result = r.result := by
  rcases r with ⟨result, journal⟩
  cases result with
  | ok a => rfl
  | error e => rfl

@[simp]
theorem result_countCorruption (r : Recorded α) : r.countCorruption.result = r.result :=
  result_onError r _

@[simp]
theorem result_mapError (r : Recorded α) (f : BlockError → BlockError) :
    (r.mapError f).result = r.result.mapError f :=
  rfl

end SeriesBlock.Recorded
