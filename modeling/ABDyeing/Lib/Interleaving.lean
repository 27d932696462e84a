import Mathlib.Data.List.Basic
import ABDyeing.Lib.Outcome

/-! Threads that work on a state in parts, where each thread reads and writes one part only.  Their
steps may fall in any order: each part goes through the steps of its own thread as if there were no
others, and the whole runs through where each thread alone does.  A thread that fails ends the run
of all. -/

namespace Lib

variable {ε σ α ι : Type}

theorem except_bind_eq_ok {β γ : Type} {x : Except ε β} {f : β → Except ε γ} {c : γ} :
    x >>= f = .ok c ↔ ∃ b, x = .ok b ∧ f b = .ok c := by
  cases x with
  | error e => simp [bind, Except.bind]
  | ok b => simp [bind, Except.bind]

/-- The steps one after the other. -/
def runSteps (step : σ → α → Except ε σ) : σ → List α → Except ε σ
  | s, [] => .ok s
  | s, a :: actions => do runSteps step (← step s a) actions

section RunSteps

variable {step : σ → α → Except ε σ} {s t : σ}

theorem runSteps_cons {a : α} {actions : List α} :
    runSteps step s (a :: actions) = .ok t ↔
      ∃ next, step s a = .ok next ∧ runSteps step next actions = .ok t :=
  except_bind_eq_ok

theorem runSteps_append (s : σ) (before after : List α) :
    runSteps step s (before ++ after) = (do runSteps step (← runSteps step s before) after) := by
  induction before generalizing s with
  | nil => rfl
  | cons a before ih =>
    rw [List.cons_append, runSteps, runSteps]
    cases step s a with
    | error e => rfl
    | ok next => exact ih next

theorem runSteps_singleton (s : σ) (a : α) : runSteps step s [a] = step s a := by
  rw [runSteps]
  cases step s a <;> rfl

theorem runSteps_pair (s : σ) (a b : α) : runSteps step s [a, b] = (do step (← step s a) b) := by
  rw [runSteps]
  exact bind_congr fun next => runSteps_singleton next b

/-- What every step of a run keeps, the run keeps. -/
theorem runSteps_invariant {I : σ → Prop} {actions : List α}
    (keep : ∀ s, ∀ a ∈ actions, ∀ next, I s → step s a = .ok next → I next) (start : I s)
    (hrun : runSteps step s actions = .ok t) : I t := by
  induction actions generalizing s with
  | nil =>
    obtain rfl : s = t := Except.ok.inj hrun
    exact start
  | cons a actions ih =>
    obtain ⟨next, hstep, hrun⟩ := runSteps_cons.mp hrun
    exact ih (fun s b hb => keep s b (.tail _ hb)) (keep s a List.mem_cons_self next start hstep)
      hrun

/-- A step of this kind is made, or tried, in the run. -/
inductive Occurs (step : σ → α → Except ε σ) (P : σ → α → Prop) : σ → List α → Prop
  | now {s : σ} {a : α} {actions : List α} : P s a → Occurs step P s (a :: actions)
  | later {s next : σ} {a : α} {actions : List α} :
    step s a = .ok next → Occurs step P next actions → Occurs step P s (a :: actions)

variable {P : σ → α → Prop}

theorem not_occurs_nil : ¬Occurs step P s [] := nofun

theorem occurs_cons {a : α} {actions : List α} {next : σ} (hstep : step s a = .ok next) :
    Occurs step P s (a :: actions) ↔ P s a ∨ Occurs step P next actions := by
  constructor
  · rintro (now | ⟨hstep', later⟩)
    · exact .inl now
    · rw [hstep, Except.ok.injEq] at hstep'
      subst hstep'
      exact .inr later
  · rintro (now | later)
    · exact .now now
    · exact .later hstep later

/-- Where a step of this kind fails and any other goes on, a run goes through unless it has one. -/
theorem runSteps_ends {I : σ → Prop} {e : ε} {actions : List α}
    (fails : ∀ s, ∀ a ∈ actions, I s → P s a → step s a = .error e)
    (goesOn : ∀ s, ∀ a ∈ actions, I s → ¬P s a → ∃ next, step s a = .ok next ∧ I next)
    (start : I s) :
    (Occurs step P s actions → runSteps step s actions = .error e) ∧
      (¬Occurs step P s actions → ∃ t, runSteps step s actions = .ok t) := by
  induction actions generalizing s with
  | nil => exact ⟨fun occurs => absurd occurs not_occurs_nil, fun _ => ⟨s, rfl⟩⟩
  | cons a actions ih =>
    by_cases now : P s a
    · have failed := fails s a List.mem_cons_self start now
      refine ⟨fun _ => ?_, fun none => absurd (.now now) none⟩
      rw [runSteps, failed]
      rfl
    · obtain ⟨next, hstep, hnext⟩ := goesOn s a List.mem_cons_self start now
      obtain ⟨ends, through⟩ := ih (fun s b hb => fails s b (.tail _ hb))
        (fun s b hb => goesOn s b (.tail _ hb)) hnext
      have first : runSteps step s (a :: actions) = runSteps step next actions := by
        rw [runSteps, hstep]
        rfl
      rw [first, occurs_cons hstep, or_iff_right now]
      exact ⟨ends, through⟩

end RunSteps

/-- A state in parts: a part is read and written without the others, and they make up the state. -/
structure Parts (σ ι : Type) (τ : ι → Type) where
  get : ∀ i, σ → τ i
  set : ∀ i, τ i → σ → σ
  get_set : ∀ i x s, get i (set i x s) = x
  get_set_of_ne : ∀ {i j}, j ≠ i → ∀ x s, get j (set i x s) = get j s
  ext : ∀ {s t}, (∀ i, get i s = get i t) → s = t

theorem Parts.set_get {τ : ι → Type} (parts : Parts σ ι τ) [DecidableEq ι] (i : ι) (s : σ) :
    parts.set i (parts.get i s) s = s := by
  refine parts.ext fun j => ?_
  by_cases same : j = i
  · subst same
    exact parts.get_set j (parts.get j s) s
  · exact parts.get_set_of_ne same (parts.get i s) s

/-- A step reads and writes the part of its thread only: in a state that has the same part it does
the same to it, and leaves the other parts alone. -/
structure Parts.Drives {τ : ι → Type} (parts : Parts σ ι τ) (thread : α → ι)
    (step : σ → α → Except ε σ) : Prop where
  step_eq : ∀ {s s'} a, parts.get (thread a) s' = parts.get (thread a) s →
    step s' a = (step s a).map fun t => parts.set (thread a) (parts.get (thread a) t) s'

namespace Parts.Drives

variable {τ : ι → Type} {parts : Parts σ ι τ} {thread : α → ι} {step : σ → α → Except ε σ}
  {s s' t next : σ} {a : α}

theorem step_of_same (drives : parts.Drives thread step) (hstep : step s a = .ok next)
    (same : parts.get (thread a) s' = parts.get (thread a) s) :
    step s' a = .ok (parts.set (thread a) (parts.get (thread a) next) s') := by
  rw [drives.step_eq a same, hstep]
  rfl

/-- A step leaves the parts of the other threads alone. -/
theorem get_of_ne (drives : parts.Drives thread step) (hstep : step s a = .ok next) {i : ι}
    (other : i ≠ thread a) : parts.get i next = parts.get i s := by
  have again := (drives.step_of_same hstep rfl).symm.trans hstep
  rw [← Except.ok.inj again, parts.get_set_of_ne other]

end Parts.Drives

variable [DecidableEq ι]

/-- The steps of one thread in their order. -/
def stepsOf (thread : α → ι) (i : ι) (actions : List α) : List α :=
  actions.filter fun a => decide (thread a = i)

theorem stepsOf_cons_self (thread : α → ι) (a : α) (actions : List α) :
    stepsOf thread (thread a) (a :: actions) = a :: stepsOf thread (thread a) actions :=
  List.filter_cons_of_pos (by simp)

theorem stepsOf_cons_of_ne {thread : α → ι} {i : ι} {a : α} (other : i ≠ thread a)
    (actions : List α) : stepsOf thread i (a :: actions) = stepsOf thread i actions :=
  List.filter_cons_of_neg (by simpa using Ne.symm other)

theorem stepsOf_append (thread : α → ι) (i : ι) (before after : List α) :
    stepsOf thread i (before ++ after) = stepsOf thread i before ++ stepsOf thread i after :=
  List.filter_append before after

theorem stepsOf_stepsOf (thread : α → ι) (i j : ι) (actions : List α) :
    stepsOf thread i (stepsOf thread j actions) =
      if i = j then stepsOf thread i actions else [] := by
  rw [stepsOf, stepsOf, List.filter_filter]
  split
  · rename_i same
    subst same
    simp only [Bool.and_self]
    rfl
  · rename_i other
    refine List.filter_eq_nil_iff.mpr fun a _ both => other ?_
    simp only [Bool.and_eq_true, decide_eq_true_eq] at both
    exact both.1.symm.trans both.2

namespace Parts.Drives

variable {τ : ι → Type} {parts : Parts σ ι τ} {thread : α → ι} {step : σ → α → Except ε σ}
  {actions : List α} {s t : σ}

/-- In whatever order the steps fall, each part becomes what its thread alone makes of it. -/
theorem alone (drives : parts.Drives thread step) (hrun : runSteps step s actions = .ok t) (i : ι)
    {s' : σ} (same : parts.get i s' = parts.get i s) :
    ∃ t', runSteps step s' (stepsOf thread i actions) = .ok t' ∧
      parts.get i t' = parts.get i t := by
  induction actions generalizing s s' with
  | nil =>
    obtain rfl : s = t := Except.ok.inj hrun
    exact ⟨s', rfl, same⟩
  | cons a actions ih =>
    obtain ⟨next, hstep, hrun⟩ := runSteps_cons.mp hrun
    by_cases mine : i = thread a
    · subst mine
      obtain ⟨t', hrun', hget⟩ := ih hrun (parts.get_set (thread a) (parts.get (thread a) next) s')
      refine ⟨t', ?_, hget⟩
      rw [stepsOf_cons_self, runSteps_cons]
      exact ⟨_, drives.step_of_same hstep same, hrun'⟩
    · rw [stepsOf_cons_of_ne mine]
      exact ih hrun (same.trans (drives.get_of_ne hstep mine).symm)

/-- A part stays as it is where its thread makes no step. -/
theorem get_of_idle (drives : parts.Drives thread step) (hrun : runSteps step s actions = .ok t)
    {i : ι} (idle : stepsOf thread i actions = []) : parts.get i t = parts.get i s := by
  obtain ⟨t', hrun', same⟩ := drives.alone hrun i rfl
  rw [idle] at hrun'
  rw [← same, ← Except.ok.inj hrun']

/-- Where every thread alone runs through, so does the whole. -/
theorem exists_run (drives : parts.Drives thread step)
    (alone : ∀ i, ∃ s' t', parts.get i s' = parts.get i s ∧
      runSteps step s' (stepsOf thread i actions) = .ok t') :
    ∃ t, runSteps step s actions = .ok t := by
  induction actions generalizing s with
  | nil => exact ⟨s, rfl⟩
  | cons a actions ih =>
    obtain ⟨s', t', same, hrun⟩ := alone (thread a)
    rw [stepsOf_cons_self, runSteps_cons] at hrun
    obtain ⟨next', hstep', hrest⟩ := hrun
    have hstep := drives.step_of_same hstep' same.symm
    have rest := ih (s := parts.set (thread a) (parts.get (thread a) next') s) fun i => by
      by_cases mine : i = thread a
      · subst mine
        exact ⟨next', t', (parts.get_set _ _ _).symm, hrest⟩
      · obtain ⟨s', t', same, hrun⟩ := alone i
        rw [stepsOf_cons_of_ne mine] at hrun
        exact ⟨s', t', same.trans (parts.get_set_of_ne mine _ _).symm, hrun⟩
    obtain ⟨t, ht⟩ := rest
    exact ⟨t, runSteps_cons.mpr ⟨_, hstep, ht⟩⟩

theorem run_iff (drives : parts.Drives thread step) :
    runSteps step s actions = .ok t ↔
      ∀ i, ∃ t', runSteps step s (stepsOf thread i actions) = .ok t' ∧
        parts.get i t' = parts.get i t := by
  refine ⟨fun hrun i => drives.alone hrun i rfl, fun each => ?_⟩
  obtain ⟨t₀, hrun⟩ : ∃ t₀, runSteps step s actions = .ok t₀ := by
    refine drives.exists_run fun i => ?_
    obtain ⟨t', h, -⟩ := each i
    exact ⟨s, t', rfl, h⟩
  have same : t₀ = t := by
    refine parts.ext fun i => ?_
    obtain ⟨t₁, h₁, hget₁⟩ := drives.alone hrun i rfl
    obtain ⟨t₂, h₂, hget₂⟩ := each i
    obtain rfl := Except.ok.inj (h₁.symm.trans h₂)
    exact hget₁.symm.trans hget₂
  rw [hrun, same]

/-- Two schedules in which every thread makes the same steps lead to the same state, or neither of
them runs through. -/
theorem run_congr (drives : parts.Drives thread step) {actions' : List α}
    (same : ∀ i, stepsOf thread i actions = stepsOf thread i actions') (s t : σ) :
    runSteps step s actions = .ok t ↔ runSteps step s actions' = .ok t := by
  rw [drives.run_iff, drives.run_iff]
  simp only [same]

end Parts.Drives

end Lib
