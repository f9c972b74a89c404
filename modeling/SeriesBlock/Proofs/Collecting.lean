import Mathlib.Data.List.Induction
import Mathlib.Data.List.Perm.Subperm
import Mathlib.Logic.Relation
import SeriesBlock.Proofs.Steps

/-!
# Tasks in any order

Tasks that any number of threads work on, one outcome for each, collected into one outcome for all.
The threads finish the tasks one after another in an order of their own (`Finishes`); the collection
ends with all values, in the order of the tasks, once every task has one, or with any failure that
has occurred (`Ends`). Runs of this kind are what a `Collector` stands for. `Rounds` keeps the order
in which the tasks are finished as well (`rounds_iff_run`): these are the tasks whose slots are filled,
each once (`Rounds.perm`).

A slot never holds anything but the outcome of its own task (`Sound`), whatever the order. So all
values are there exactly when every task succeeds (`collects_ok_iff`), and a failure is that of some
task, which may be any that fails (`collects_error_iff`). One thread that takes the tasks in order
meets the first that fails (`mapM_of_firstFails`).
-/

set_option autoImplicit false

namespace SeriesBlock

open Relation

variable {α β : Type}

/-- For each task its outcome, once it is finished. -/
abbrev Slots (β : Type) := List (Option (Except BlockError β))

namespace Slots

/-- No task is finished. -/
def start (β : Type) (n : Nat) : Slots β := List.replicate n none

/-- Each task is finished. -/
def complete (f : α → Except BlockError β) (tasks : List α) : Slots β :=
  tasks.map fun a => some (f a)

end Slots

/-- A thread finishes one of the tasks that are open. -/
inductive Finishes (f : α → Except BlockError β) (tasks : List α) : Slots β → Slots β → Prop where
  | task {slots : Slots β} {p : Nat} {a : α} : tasks[p]? = some a → slots[p]? = some none →
      Finishes f tasks slots (slots.set p (some (f a)))

/-- What a collection ends with: the values of all tasks, or a failure that has occurred. -/
inductive Ends : Slots β → Except BlockError (List β) → Prop where
  | values (values : List β) : Ends (values.map fun v => some (.ok v)) (.ok values)
  | failure {slots : Slots β} {e : BlockError} : some (.error e) ∈ slots → Ends slots (.error e)

/-- What tasks may be collected to. -/
def Collects (f : α → Except BlockError β) (tasks : List α) (r : Except BlockError (List β)) : Prop :=
  ∃ slots, ReflTransGen (Finishes f tasks) (Slots.start β tasks.length) slots ∧ Ends slots r

/-- A way to do tasks and collect their outcomes. -/
structure Collector (α β : Type) where
  collect : (α → Except BlockError β) → List α → Except BlockError (List β)
  collects : ∀ f tasks, Collects f tasks (collect f tasks)

/-! ## What the slots hold -/

/-- There is a slot for each task, and it holds nothing but the outcome of that task. -/
structure Sound (f : α → Except BlockError β) (tasks : List α) (slots : Slots β) : Prop where
  length_eq : slots.length = tasks.length
  outcome : ∀ {p : Nat} {r : Except BlockError β}, slots[p]? = some (some r) →
    ∃ a, tasks[p]? = some a ∧ r = f a

variable {f : α → Except BlockError β} {tasks : List α}

theorem sound_start : Sound f tasks (Slots.start β tasks.length) where
  length_eq := List.length_replicate
  outcome := by
    intro p r hp
    rw [Slots.start, List.getElem?_replicate] at hp
    split at hp
    · cases hp
    · cases hp

/-- Finishing a task keeps the slots sound. -/
theorem Sound.finishes {slots slots' : Slots β} (h : Sound f tasks slots)
    (hstep : Finishes f tasks slots slots') : Sound f tasks slots' := by
  cases hstep with
  | @task p a htask hopen =>
      refine ⟨?_, ?_⟩
      · rw [List.length_set]
        exact h.length_eq
      · intro q r hq
        rw [List.getElem?_set] at hq
        split at hq
        -- the slot that was filled
        · next hpq =>
          subst hpq
          split at hq
          · cases hq
            exact ⟨a, htask, rfl⟩
          · cases hq
        · exact h.outcome hq

/-- **Whatever the order, a slot holds the outcome of its own task.** -/
theorem Sound.run {slots slots' : Slots β} (h : Sound f tasks slots)
    (hrun : ReflTransGen (Finishes f tasks) slots slots') : Sound f tasks slots' := by
  induction hrun with
  | refl => exact h
  | tail _ hstep ih => exact ih.finishes hstep

/-- Where all values are there, each task has succeeded with its own. -/
theorem Sound.map_eq {values : List β} (h : Sound f tasks (values.map fun v => some (.ok v))) :
    tasks.map f = values.map .ok := by
  have hlen : values.length = tasks.length := by
    rw [← h.length_eq, List.length_map]
  -- place by place, the value there is the outcome of the task there
  refine List.ext_getElem (by rw [List.length_map, List.length_map, hlen]) ?_
  intro p hp hv
  rw [List.length_map] at hv
  obtain ⟨a, ha, hfa⟩ := h.outcome (p := p) (r := .ok values[p]) (by
    rw [List.getElem?_map, List.getElem?_eq_getElem hv]
    rfl)
  obtain ⟨hlt, rfl⟩ := List.getElem?_eq_some_iff.1 ha
  rw [List.getElem_map, List.getElem_map]
  exact hfa.symm

/-! ## The order in which tasks are finished -/

/-- Threads finish tasks, which are kept in this order. -/
inductive Rounds (f : α → Except BlockError β) (tasks : List α) : List α → Slots β → Prop where
  | start : Rounds f tasks [] (Slots.start β tasks.length)
  | finish {done : List α} {slots : Slots β} {p : Nat} {a : α} : Rounds f tasks done slots →
      tasks[p]? = some a → slots[p]? = some none → Rounds f tasks (done ++ [a]) (slots.set p (some (f a)))

/-- The tasks whose slots are filled, in their own order. -/
def finished : List α → Slots β → List α
  | a :: tasks, some _ :: slots => a :: finished tasks slots
  | _ :: tasks, none :: slots => finished tasks slots
  | _, _ => []

section Rounds

variable {done : List α} {slots : Slots β} {values : List β}

/-- **Rounds are runs**, with an order that these do not keep. -/
theorem rounds_iff_run :
    (∃ done, Rounds f tasks done slots) ↔ ReflTransGen (Finishes f tasks) (Slots.start β tasks.length) slots := by
  constructor
  · rintro ⟨done, h⟩
    induction h with
    | start => exact .refl
    | finish _ htask hopen ih => exact ih.tail (.task htask hopen)
  · intro h
    induction h with
    | refl => exact ⟨[], .start⟩
    | tail _ hstep ih =>
        obtain ⟨done, hdone⟩ := ih
        cases hstep with
        | task htask hopen => exact ⟨_, hdone.finish htask hopen⟩

theorem Rounds.sound (h : Rounds f tasks done slots) : Sound f tasks slots :=
  sound_start.run (rounds_iff_run.1 ⟨done, h⟩)

theorem finished_start (tasks : List α) : finished tasks (Slots.start β tasks.length) = [] := by
  induction tasks with
  | nil => rfl
  | cons a tasks ih => exact ih

theorem finished_sublist (tasks : List α) (slots : Slots β) : (finished tasks slots).Sublist tasks := by
  induction tasks generalizing slots with
  | nil => exact List.nil_sublist []
  | cons a tasks ih =>
      rcases slots with _ | ⟨⟨⟩ | ⟨r⟩, slots⟩
      · exact List.nil_sublist _
      · exact (ih slots).cons a
      · exact (ih slots).cons_cons a

/-- Filling an open slot adds its task. -/
theorem finished_set {p : Nat} {a : α} {r : Except BlockError β} (htask : tasks[p]? = some a)
    (hopen : slots[p]? = some none) : (finished tasks (slots.set p (some r))).Perm (a :: finished tasks slots) := by
  induction tasks generalizing slots p with
  | nil => cases htask
  | cons b tasks ih =>
      cases p with
      | zero =>
          cases htask
          rcases slots with _ | ⟨⟨⟩ | ⟨r'⟩, slots⟩
          · cases hopen
          · exact .refl _
          · cases hopen
      | succ p =>
          rcases slots with _ | ⟨⟨⟩ | ⟨r'⟩, slots⟩
          · cases hopen
          · exact ih htask hopen
          -- the task comes after one that is finished already
          · exact ((ih htask hopen).cons b).trans (.swap a b _)

theorem finished_values {slots : Slots β} (hslots : slots = values.map fun v => some (.ok v))
    (h : slots.length = tasks.length) : finished tasks slots = tasks := by
  subst hslots
  induction tasks generalizing values with
  | nil =>
      cases values with
      | nil => rfl
      | cons v values => cases h
  | cons a tasks ih =>
      cases values with
      | nil => cases h
      | cons v values => exact congrArg (a :: ·) (ih (Nat.succ.inj h))

theorem mem_finished {p : Nat} {a : α} {r : Except BlockError β} (htask : tasks[p]? = some a)
    (hslot : slots[p]? = some (some r)) : a ∈ finished tasks slots := by
  induction tasks generalizing slots p with
  | nil => cases htask
  | cons b tasks ih =>
      cases p with
      | zero =>
          cases htask
          rcases slots with _ | ⟨⟨⟩ | ⟨r'⟩, slots⟩
          · cases hslot
          · cases hslot
          · exact List.mem_cons_self
      | succ p =>
          rcases slots with _ | ⟨⟨⟩ | ⟨r'⟩, slots⟩
          · cases hslot
          · exact ih htask hslot
          · exact List.mem_cons_of_mem b (ih htask hslot)

/-- **What is finished are the tasks whose slots are filled**, each once. -/
theorem Rounds.perm (h : Rounds f tasks done slots) : done.Perm (finished tasks slots) := by
  induction h with
  | start => rw [finished_start]
  | @finish done slots p a _ htask hopen ih =>
      calc (done ++ [a]).Perm (a :: done) := List.perm_append_singleton a done
        _ |>.Perm (a :: finished tasks slots) := ih.cons a
        _ |>.Perm (finished tasks (slots.set p (some (f a)))) := (finished_set htask hopen).symm

/-- Where all values are there, each task is finished. -/
theorem Rounds.perm_of_values (h : Rounds f tasks done (values.map fun v => some (.ok v))) : done.Perm tasks := by
  have hperm := h.perm
  rwa [finished_values rfl h.sound.length_eq] at hperm

/-- No task is finished twice. -/
theorem Rounds.subperm (h : Rounds f tasks done slots) : done.Subperm tasks :=
  h.perm.subperm.trans (finished_sublist tasks slots).subperm

/-- A failure that has occurred is that of a task that is finished. -/
theorem Rounds.exists_of_error {e : BlockError} (h : Rounds f tasks done slots) (he : some (.error e) ∈ slots) :
    ∃ a ∈ done, f a = .error e := by
  obtain ⟨p, hp⟩ := List.mem_iff_getElem?.1 he
  obtain ⟨a, htask, hfails⟩ := h.sound.outcome hp
  exact ⟨a, h.perm.mem_iff.2 (mem_finished htask hp), hfails.symm⟩

/-- One thread that takes the tasks in order has finished those in front before the others. -/
theorem rounds_prefix (done rest : List α) :
    Rounds f (done ++ rest) done (Slots.complete f done ++ Slots.start β rest.length) := by
  induction done using List.reverseRecOn generalizing rest with
  | nil => exact .start
  | append_singleton done a ih =>
      have hlen : (Slots.complete f done).length = done.length := List.length_map _
      have htask : (done ++ a :: rest)[done.length]? = some a := by
        rw [List.getElem?_append_right (Nat.le_refl _), Nat.sub_self]
        rfl
      have hopen : (Slots.complete f done ++ Slots.start β (a :: rest).length)[done.length]? =
          some none := by
        rw [List.getElem?_append_right (Nat.le_of_eq hlen), hlen, Nat.sub_self]
        rfl
      -- the next task is the first of those that are open
      have hset : (Slots.complete f done ++ Slots.start β (a :: rest).length).set done.length
          (some (f a)) = Slots.complete f (done ++ [a]) ++ Slots.start β rest.length := by
        rw [List.set_append_right _ _ (Nat.le_of_eq hlen), hlen, Nat.sub_self, Slots.complete,
          Slots.complete, List.map_append, List.append_assoc]
        rfl
      have hmore := (ih (a :: rest)).finish htask hopen
      rwa [hset, List.append_cons] at hmore

/-- So it finishes all of them, with their values if they all succeed. -/
theorem rounds_of_ok (h : tasks.map f = values.map .ok) :
    Rounds f tasks tasks (values.map fun v => some (.ok v)) := by
  have hslots : Slots.complete f tasks ++ Slots.start β ([] : List α).length =
      values.map fun v => some (.ok v) := by
    have hsome := congrArg (List.map some) h
    rw [List.map_map, List.map_map] at hsome
    exact (List.append_nil _).trans hsome
  have hrounds := rounds_prefix (f := f) tasks []
  rwa [List.append_nil, hslots] at hrounds

end Rounds

/-! ## What may be collected -/

/-- **All values are collected exactly when every task succeeds**, each with its own. -/
theorem collects_ok_iff {values : List β} :
    Collects f tasks (.ok values) ↔ tasks.map f = values.map .ok := by
  constructor
  · rintro ⟨slots, hrun, hends⟩
    cases hends with
    | values values => exact (sound_start.run hrun).map_eq
  · intro h
    -- one thread that takes them in order gets there
    exact ⟨_, rounds_iff_run.1 ⟨tasks, rounds_of_ok h⟩, .values values⟩

/-- **A failure that is collected is that of a task**, and each failure of a task may be. -/
theorem collects_error_iff {e : BlockError} :
    Collects f tasks (.error e) ↔ ∃ a ∈ tasks, f a = .error e := by
  constructor
  · rintro ⟨slots, hrun, hends⟩
    cases hends with
    | failure hmem =>
        obtain ⟨p, hp⟩ := List.mem_iff_getElem?.1 hmem
        obtain ⟨a, ha, hfa⟩ := (sound_start.run hrun).outcome hp
        exact ⟨a, List.mem_of_getElem? ha, hfa.symm⟩
  -- the task that fails may be the first to finish
  · rintro ⟨a, hmem, hfa⟩
    obtain ⟨p, hp⟩ := List.mem_iff_getElem?.1 hmem
    obtain ⟨hlt, -⟩ := List.getElem?_eq_some_iff.1 hp
    have hopen : (Slots.start β tasks.length)[p]? = some none := by
      rw [Slots.start, List.getElem?_replicate, if_pos hlt]
    refine ⟨_, ReflTransGen.single (Finishes.task hp hopen), Ends.failure ?_⟩
    rw [hfa]
    exact List.mem_set (by rwa [Slots.start, List.length_replicate]) _

/-! ## Tasks in order -/

/-- `a` is the first of the tasks that fails, and `before` are those ahead of it. -/
structure FirstFails (f : α → Except BlockError β) (tasks before : List α) (a : α)
    (e : BlockError) : Prop where
  ahead : before ++ [a] <+: tasks
  succeed : ∀ b ∈ before, ∃ v, f b = .ok v
  fails : f a = .error e

theorem FirstFails.mem {before : List α} {a : α} {e : BlockError}
    (h : FirstFails f tasks before a e) : a ∈ tasks :=
  h.ahead.subset (List.mem_append_right before List.mem_cons_self)

/-- The first task that fails splits the tasks into those ahead of it and those after it. -/
theorem firstFails_iff {before : List α} {a : α} {e : BlockError} :
    FirstFails f tasks before a e ↔
      (∃ after, tasks = before ++ a :: after) ∧ (∀ b ∈ before, ∃ v, f b = .ok v) ∧ f a = .error e := by
  constructor
  · rintro ⟨⟨after, rfl⟩, hsucceed, hfails⟩
    exact ⟨⟨after, (List.append_cons before a after).symm⟩, hsucceed, hfails⟩
  · rintro ⟨⟨after, rfl⟩, hsucceed, hfails⟩
    exact ⟨⟨after, (List.append_cons before a after).symm⟩, hsucceed, hfails⟩

/-- One thread that takes the tasks in order may stop there. -/
theorem FirstFails.rounds {before : List α} {a : α} {e : BlockError} (h : FirstFails f tasks before a e) :
    ∃ slots, Rounds f tasks (before ++ [a]) slots ∧ some (.error e) ∈ slots := by
  obtain ⟨⟨after, rfl⟩, -, hfails⟩ := h
  refine ⟨_, rounds_prefix (before ++ [a]) after, List.mem_append_left _ ?_⟩
  rw [← hfails]
  exact List.mem_map_of_mem (List.mem_append_right before List.mem_cons_self)

/-- Either all tasks succeed or one of them is the first that fails. -/
theorem firstFails_or_ok (f : α → Except BlockError β) (tasks : List α) :
    (∃ before a e, FirstFails f tasks before a e) ∨
      ∃ values : List β, tasks.map f = values.map .ok := by
  induction tasks with
  | nil => exact Or.inr ⟨[], rfl⟩
  | cons t tasks ih =>
      cases ht : f t with
      | error e => exact Or.inl ⟨[], t, e, List.prefix_append [t] tasks, by simp, ht⟩
      | ok v =>
          rcases ih with ⟨before, a, e, hahead, hsucceed, hfails⟩ | ⟨values, hvalues⟩
          · refine Or.inl ⟨t :: before, a, e, ?_, ?_, hfails⟩
            · exact List.cons_prefix_cons.2 ⟨rfl, hahead⟩
            · intro b hb
              rcases List.mem_cons.1 hb with rfl | hb
              · exact ⟨v, ht⟩
              · exact hsucceed b hb
          · refine Or.inr ⟨v :: values, ?_⟩
            rw [List.map_cons, List.map_cons, ht, hvalues]

theorem exists_map_eq_iff :
    (∃ values : List β, tasks.map f = values.map .ok) ↔ ∀ a ∈ tasks, ∃ v, f a = .ok v := by
  constructor
  · rintro ⟨values, h⟩ a ha
    have hmem : f a ∈ values.map Except.ok := by
      rw [← h]
      exact List.mem_map_of_mem ha
    obtain ⟨v, -, hv⟩ := List.mem_map.1 hmem
    exact ⟨v, hv.symm⟩
  · intro h
    rcases firstFails_or_ok f tasks with ⟨before, a, e, hfirst⟩ | hok
    · obtain ⟨v, hv⟩ := h a hfirst.mem
      rw [hfirst.fails] at hv
      cases hv
    · exact hok

/-- Doing the tasks in order ends with the first that fails. -/
theorem mapM_of_firstFails {before : List α} {a : α} {e : BlockError}
    (h : FirstFails f tasks before a e) : tasks.mapM f = .error e := by
  obtain ⟨⟨after, rfl⟩, hsucceed, hfails⟩ := firstFails_iff.1 h
  clear h
  induction before with
  | nil =>
      rw [List.nil_append, List.mapM_cons, hfails]
      rfl
  | cons t before ih =>
      obtain ⟨v, hv⟩ := hsucceed t List.mem_cons_self
      rw [List.cons_append, List.mapM_cons, hv, ih fun b hb => hsucceed b (List.mem_cons_of_mem t hb)]
      rfl

/-- **Doing the tasks in order fails exactly with the first that does.** -/
theorem mapM_eq_error_iff {e : BlockError} :
    tasks.mapM f = .error e ↔ ∃ before a, FirstFails f tasks before a e := by
  constructor
  · intro h
    rcases firstFails_or_ok f tasks with ⟨before, a, e', hfirst⟩ | ⟨values, hvalues⟩
    · rw [mapM_of_firstFails hfirst] at h
      cases h
      exact ⟨before, a, hfirst⟩
    · rw [except_mapM_eq_ok_iff.2 hvalues] at h
      cases h
  · rintro ⟨before, a, hfirst⟩
    exact mapM_of_firstFails hfirst

theorem eq_range_of_prefix {n : Nat} {l : List Nat} (h : l <+: List.range n) :
    l = List.range l.length := by
  have hle : l.length ≤ n := by simpa using h.length_le
  rw [List.prefix_iff_eq_take, List.take_range, Nat.min_eq_left hle] at h
  exact h

/-- Of numbered tasks, the first that fails has only tasks ahead of it that succeed. -/
theorem mapM_range_eq_error_iff {f : Nat → Except BlockError β} {n : Nat} {e : BlockError} :
    (List.range n).mapM f = .error e ↔ ∃ k < n, (∀ j < k, ∃ v, f j = .ok v) ∧ f k = .error e := by
  constructor
  · intro h
    obtain ⟨before, k, hfirst⟩ := mapM_eq_error_iff.1 h
    have hahead := eq_range_of_prefix hfirst.ahead
    rw [List.length_append, List.length_singleton, List.range_succ] at hahead
    obtain ⟨hbefore, hk⟩ := List.append_inj' hahead rfl
    cases hk
    refine ⟨before.length, List.mem_range.1 hfirst.mem, ?_, hfirst.fails⟩
    intro j hj
    exact hfirst.succeed j (hbefore ▸ List.mem_range.2 hj)
  · rintro ⟨k, hk, hbefore, hfails⟩
    have hahead : List.range k ++ [k] <+: List.range n := by
      rw [← List.range_succ, List.prefix_iff_eq_take, List.length_range, List.take_range,
        Nat.min_eq_left hk]
    exact mapM_of_firstFails ⟨hahead, fun j hj => hbefore j (List.mem_range.1 hj), hfails⟩

/-- Doing the tasks in order, up to the first that fails, is one way to collect them. -/
theorem collects_mapM (f : α → Except BlockError β) (tasks : List α) :
    Collects f tasks (tasks.mapM f) := by
  rcases firstFails_or_ok f tasks with ⟨before, a, e, h⟩ | ⟨values, h⟩
  · rw [mapM_of_firstFails h]
    exact collects_error_iff.2 ⟨a, h.mem, h.fails⟩
  · rw [except_mapM_eq_ok_iff.2 h]
    exact collects_ok_iff.2 h

/-- The collector with one thread. -/
def Collector.inOrder (α β : Type) : Collector α β where
  collect f tasks := tasks.mapM f
  collects := collects_mapM

open Classical in
/-- A collector that gives the outcome `r` wherever tasks may be collected to it. -/
noncomputable def Collector.preferring (r : Except BlockError (List β)) : Collector α β where
  collect f tasks := if Collects f tasks r then r else tasks.mapM f
  collects f tasks := by
    split
    · next h => exact h
    · exact collects_mapM f tasks

theorem Collector.collect_preferring {r : Except BlockError (List β)} (h : Collects f tasks r) :
    (preferring r).collect f tasks = r :=
  if_pos h

/-! ## Two collectors -/

/-- Tasks that are collected to all their values are collected to no failure. -/
theorem Collects.not_error {values : List β} {e : BlockError} (h : Collects f tasks (.ok values)) :
    ¬ Collects f tasks (.error e) := by
  intro h'
  obtain ⟨a, hmem, hfails⟩ := collects_error_iff.1 h'
  obtain ⟨v, hv⟩ := exists_map_eq_iff.1 ⟨values, collects_ok_iff.1 h⟩ a hmem
  rw [hfails] at hv
  cases hv

/-- **Two collectors agree, or each gives the failure of some task**, and these differ. -/
theorem Collector.collect_eq_or_fail (c c' : Collector α β) (f : α → Except BlockError β) (tasks : List α) :
    c.collect f tasks = c'.collect f tasks ∨
      ∃ a ∈ tasks, ∃ a' ∈ tasks, ∃ e e', f a = .error e ∧ f a' = .error e' ∧ e ≠ e' ∧
        c.collect f tasks = .error e ∧ c'.collect f tasks = .error e' := by
  have h := c.collects f tasks
  have h' := c'.collects f tasks
  rcases hc : c.collect f tasks with e | values
  · rw [hc] at h
    rcases hc' : c'.collect f tasks with e' | values'
    · rw [hc'] at h'
      obtain ⟨a, hmem, hfails⟩ := collects_error_iff.1 h
      obtain ⟨a', hmem', hfails'⟩ := collects_error_iff.1 h'
      by_cases heq : e = e'
      · exact .inl (congrArg Except.error heq)
      · exact .inr ⟨a, hmem, a', hmem', e, e', hfails, hfails', heq, rfl, rfl⟩
    · rw [hc'] at h'
      exact absurd h h'.not_error
  · rw [hc] at h
    rcases hc' : c'.collect f tasks with e' | values'
    · rw [hc'] at h'
      exact absurd h' h.not_error
    -- each task has the one value that either collector holds for it
    · rw [hc'] at h'
      have hvalues := (collects_ok_iff.1 h).symm.trans (collects_ok_iff.1 h')
      exact .inl (congrArg Except.ok (List.map_injective_iff.2 (fun _ _ => Except.ok.inj) hvalues))

end SeriesBlock
