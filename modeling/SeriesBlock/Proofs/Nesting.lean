import Mathlib.Data.List.Infix
import SeriesBlock.Error

/-!
# Errors inside sections

An error may stand inside sections, to any depth. It is taken apart into the offsets of these sections, from the
outside in (`BlockError.sections`), and what went wrong inside all of them (`BlockError.cause`); there is one way to
do this (`BlockError.inSections_eq_iff`). The class, the wording and the sources of an error are each those of its
cause, with what the sections add: nothing to the class (`BlockError.isCorruption_inSections`), a heading for each
section to the wording (`BlockError.message_inSections`), and an error for each section to the sources
(`BlockError.sources_inSections`).

The main statement is `BlockError.sections_keep_their_cause`.
-/

set_option autoImplicit false

namespace SeriesBlock.BlockError

variable {e : BlockError}

/-! ## Sections and cause -/

/-- The offsets of the sections that an error stands in, from the outside in. -/
def sections : BlockError → List UInt32
  | within offset source => offset :: source.sections
  | _ => []

/-- What went wrong inside all sections. -/
def cause : BlockError → BlockError
  | within _ source => source.cause
  | e => e

/-- An error inside sections, given from the outside in. -/
def inSections (offsets : List UInt32) (e : BlockError) : BlockError :=
  offsets.foldr within e

@[simp]
theorem inSections_nil (e : BlockError) : inSections [] e = e :=
  rfl

@[simp]
theorem inSections_cons (offset : UInt32) (offsets : List UInt32) (e : BlockError) :
    inSections (offset :: offsets) e = within offset (inSections offsets e) :=
  rfl

/-- An error is its cause inside its sections. -/
theorem inSections_sections_cause (e : BlockError) : inSections e.sections e.cause = e := by
  induction e with
  | within offset source ih => rw [sections, cause, inSections_cons, ih]
  | _ => rfl

theorem sections_eq_nil_iff : e.sections = [] ↔ ∀ offset source, e ≠ within offset source := by
  cases e with
  | within offset source => exact iff_of_false nofun fun h => h offset source rfl
  | _ => exact iff_of_true rfl nofun

/-- The cause is not tied to a section. -/
theorem sections_cause (e : BlockError) : e.cause.sections = [] := by
  induction e with
  | within offset source ih => exact ih
  | _ => rfl

theorem sections_inSections (offsets : List UInt32) (e : BlockError) :
    (inSections offsets e).sections = offsets ++ e.sections := by
  induction offsets with
  | nil => rfl
  | cons offset offsets ih => rw [inSections_cons, sections, ih, List.cons_append]

theorem cause_inSections (offsets : List UInt32) (e : BlockError) : (inSections offsets e).cause = e.cause := by
  induction offsets with
  | nil => rfl
  | cons offset offsets ih => rw [inSections_cons, cause, ih]

/-- **There is one way to take an error apart** into sections and what is not tied to a section. -/
theorem inSections_eq_iff (e : BlockError) (offsets : List UInt32) (c : BlockError) :
    ((∀ offset source, c ≠ within offset source) ∧ inSections offsets c = e) ↔
      offsets = e.sections ∧ c = e.cause := by
  rw [← sections_eq_nil_iff]
  constructor
  · rintro ⟨hc, rfl⟩
    have hcause : c.cause = c := by
      have h := inSections_sections_cause c
      rwa [hc] at h
    rw [sections_inSections, cause_inSections, hc, List.append_nil, hcause]
    exact ⟨rfl, rfl⟩
  · rintro ⟨rfl, rfl⟩
    exact ⟨sections_cause e, inSections_sections_cause e⟩

/-! ## What sections add -/

/-- The words in front of an error in the section at `offset`. -/
def heading (offset : UInt32) : String :=
  s!"section at offset {offset}: "

/-- The errors inside an error, outermost first: its cause in ever fewer of the sections. -/
def inside (e : BlockError) : List BlockError :=
  e.sections.tails.tail.map fun offsets => inSections offsets e.cause

/-- The wording of the fault that a codec or the system reports. -/
def faultMessage : BlockError → Option String
  | codec fault => some fault.message
  | io fault => some fault.message
  | _ => none

theorem isCorruption_inSections (offsets : List UInt32) (e : BlockError) :
    (inSections offsets e).isCorruption = e.isCorruption := by
  induction offsets with
  | nil => rfl
  | cons offset offsets ih => rw [inSections_cons, isCorruption, ih]

theorem message_within (offset : UInt32) (e : BlockError) :
    (within offset e).message = heading offset ++ e.message :=
  rfl

theorem message_inSections (offsets : List UInt32) (e : BlockError) :
    (inSections offsets e).message = String.join (offsets.map heading) ++ e.message := by
  induction offsets with
  | nil => rw [inSections_nil, List.map_nil, String.join_nil, String.empty_append]
  | cons offset offsets ih =>
      rw [inSections_cons, message_within, ih, List.map_cons, String.join_cons, String.append_assoc]

/-- Each section adds the error inside it. -/
theorem sources_inSections (offsets : List UInt32) (e : BlockError) :
    (inSections offsets e).sources =
      (offsets.tails.tail.map fun inner => (inSections inner e).message) ++ e.sources := by
  induction offsets with
  | nil => rfl
  | cons offset offsets ih =>
      have htails : offsets.tails = offsets :: offsets.tails.tail := by cases offsets <;> rfl
      rw [inSections_cons, sources, ih, List.tails_cons, List.tail_cons, htails, List.map_cons, List.cons_append,
        List.tail_cons]

theorem sources_of_sections (h : e.sections = []) : e.sources = e.faultMessage.toList := by
  cases e with
  | within offset source => cases h
  | _ => rfl

/-! ## Classes -/

/-- No error is of both classes. -/
theorem not_isCorruption_and_isNotFound (e : BlockError) : (e.isCorruption && e.isNotFound) = false := by
  cases e with
  | notFound text => rfl
  | _ => exact Bool.and_false _

/-- An error that is tied to a section is of the class that it was of. -/
theorem isCorruption_inSection (offset : UInt32) (e : BlockError) :
    (e.inSection offset).isCorruption = e.isCorruption := by
  cases e with
  | within inner source => rfl
  | _ => rfl

/-- An error is tied to a section once. -/
theorem inSection_inSection (offset offset' : UInt32) (e : BlockError) :
    (e.inSection offset).inSection offset' = e.inSection offset := by
  cases e with
  | within inner source => rfl
  | _ => rfl

/-- An error that stands in no section is put into the one that it is tied to. -/
theorem inSection_of_sections (h : e.sections = []) (offset : UInt32) : e.inSection offset = within offset e := by
  cases e with
  | within inner source => cases h
  | _ => rfl

/-- **Sections keep the cause of an error.** An error is its cause, which is not tied to a section, inside its
sections, and there is no other way to take it apart. Tying it to a section puts it there if it stands in none, does
so once, and changes nothing if it stands in one already. It is of the class of its cause, also after it has been tied
to a section, and never of both classes. Its wording is that of its cause after a heading for each section, from the
outside in. Its sources are the errors inside it in that order, and then the fault that its cause reports. -/
theorem sections_keep_their_cause (e : BlockError) :
    (∀ offsets c, ((∀ offset source, c ≠ within offset source) ∧ inSections offsets c = e) ↔
      offsets = e.sections ∧ c = e.cause) ∧
    (∀ offset offset', (e.inSection offset).inSection offset' = e.inSection offset) ∧
    (∀ inner offset, (within inner e).inSection offset = within inner e) ∧
    (e.sections = [] → ∀ offset, e.inSection offset = within offset e) ∧
    e.isCorruption = e.cause.isCorruption ∧
    (∀ offset, (e.inSection offset).isCorruption = e.isCorruption) ∧
    (e.isCorruption && e.isNotFound) = false ∧
    e.message = String.join (e.sections.map heading) ++ e.cause.message ∧
    e.sources = e.inside.map message ++ e.cause.faultMessage.toList := by
  have he := inSections_sections_cause e
  refine ⟨inSections_eq_iff e, fun a b => inSection_inSection a b e, fun _ _ => rfl, inSection_of_sections, ?_,
    fun a => isCorruption_inSection a e, not_isCorruption_and_isNotFound e, ?_, ?_⟩
  · have hclass := isCorruption_inSections e.sections e.cause
    rwa [he] at hclass
  · have hmessage := message_inSections e.sections e.cause
    rwa [he] at hmessage
  · have hsources := sources_inSections e.sections e.cause
    rw [he, sources_of_sections (sections_cause e)] at hsources
    rw [hsources, inside, List.map_map]
    rfl

/-- A chunk that a codec refused: outside of sections it is put into the first that it is tied to, and inside two of
them it is worded and listed with both. -/
theorem sections_keep_their_cause_ofCodec :
    let refused := codec (.unknownEncoding 9)
    let nested := within 12 (within 40 refused)
    refused.inSection 40 = within 40 refused ∧
      (refused.inSection 40).inSection 12 = within 40 refused ∧
      nested.sections = [12, 40] ∧ nested.cause = refused ∧
      nested.inSection 7 = nested ∧
      nested.isCorruption = refused.isCorruption ∧
      nested.message = "section at offset 12: section at offset 40: chunk codec: unknown chunk encoding 9" ∧
      nested.sources = ["section at offset 40: chunk codec: unknown chunk encoding 9",
        "chunk codec: unknown chunk encoding 9", "unknown chunk encoding 9"] := by
  intro refused nested
  obtain ⟨-, htwice, -, hwrapped, -⟩ := sections_keep_their_cause refused
  obtain ⟨-, -, htied, -⟩ := sections_keep_their_cause (within 40 refused)
  obtain ⟨hapart, -, -, -, hclass, -, -, hmessage, hsources⟩ := sections_keep_their_cause nested
  obtain ⟨hsections, hcause⟩ := (hapart [12, 40] refused).1 ⟨nofun, rfl⟩
  rw [← hcause] at hclass hmessage hsources
  rw [inside, ← hsections, ← hcause] at hsources
  rw [← hsections] at hmessage
  have hrefused := hwrapped rfl 40
  refine ⟨hrefused, (htwice 40 12).trans hrefused, hsections.symm, hcause.symm, htied 12 7, hclass, ?_, ?_⟩
  · rw [hmessage]
    decide +kernel
  · rw [hsources]
    decide +kernel

end SeriesBlock.BlockError
