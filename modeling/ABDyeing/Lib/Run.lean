import Mathlib.Data.List.Infix

/-! Runs of a deterministic system, which are a step function folded over a list of actions: what
holds in all states of a run, what holds of all its steps, and the rules that derive one from the
other through an invariant. -/

namespace Lib

variable {σ α : Type} {step : σ → α → σ}

/-- `I` holds in every state of the run, the first one included. -/
def Always (step : σ → α → σ) (I : σ → Prop) : σ → List α → Prop
  | s, [] => I s
  | s, a :: rest => I s ∧ Always step I (step s a) rest

/-- `ok` holds of every step of the run: of the state before it and the action. -/
def Along (step : σ → α → σ) (ok : σ → α → Prop) : σ → List α → Prop
  | _, [] => True
  | s, a :: rest => ok s a ∧ Along step ok (step s a) rest

theorem always_iff_prefixes {I : σ → Prop} {s : σ} {actions : List α} :
    Always step I s actions ↔ ∀ done, done <+: actions → I (done.foldl step s) := by
  induction actions generalizing s with
  | nil => simp [Always]
  | cons a rest ih =>
    rw [Always, ih]
    constructor
    · intro ⟨hs, hrest⟩ done hdone
      cases done with
      | nil => exact hs
      | cons b done =>
        obtain ⟨rfl, hbelow⟩ := List.cons_prefix_cons.mp hdone
        exact hrest done hbelow
    · intro h
      refine ⟨h [] List.nil_prefix, fun done hdone => ?_⟩
      exact h (a :: done) (List.cons_prefix_cons.mpr ⟨rfl, hdone⟩)

theorem always_iff_along {I : σ → Prop} {s : σ} {actions : List α} :
    Always step I s actions ↔ I s ∧ Along step (fun s a => I (step s a)) s actions := by
  induction actions generalizing s with
  | nil => simp [Always, Along]
  | cons a rest ih => rw [Always, Along, ih]

theorem along_iff_forall {ok : α → Prop} {s : σ} {actions : List α} :
    Along step (fun _ a => ok a) s actions ↔ ∀ a ∈ actions, ok a := by
  induction actions generalizing s with
  | nil => simp [Along]
  | cons a rest ih => rw [Along, ih, List.forall_mem_cons]

/-- Two conditions on the steps agree along every run when they agree wherever an invariant holds
that one of them keeps. -/
theorem along_congr {I : σ → Prop} {ok ok' : σ → α → Prop}
    (keep : ∀ s a, I s → ok s a → I (step s a)) (agree : ∀ s a, I s → (ok' s a ↔ ok s a))
    {s : σ} {actions : List α} (start : I s) :
    Along step ok' s actions ↔ Along step ok s actions := by
  induction actions generalizing s with
  | nil => rfl
  | cons a rest ih =>
    rw [Along, Along, agree s a start]
    exact and_congr_right fun h => ih (keep s a start h)

/-- A property that a step keeps exactly when `ok` holds of it is kept in exactly the runs whose
steps all satisfy `ok`. -/
theorem always_iff_of_exact {I : σ → Prop} {ok : σ → α → Prop}
    (exact : ∀ s a, I s → (I (step s a) ↔ ok s a)) {s : σ} {actions : List α} (start : I s) :
    Always step I s actions ↔ Along step ok s actions := by
  rw [always_iff_along, along_congr (I := I) (fun s a h hok => (exact s a h).mpr hok) exact start]
  exact and_iff_right start

theorem always_of_step {I : σ → Prop} (keep : ∀ s a, I s → I (step s a)) {s : σ}
    {actions : List α} (start : I s) : Always step I s actions := by
  induction actions generalizing s with
  | nil => exact start
  | cons a rest ih => exact ⟨start, ih (keep s a start)⟩

theorem always_and {I J : σ → Prop} {s : σ} {actions : List α} :
    Always step (fun s => I s ∧ J s) s actions ↔
      Always step I s actions ∧ Always step J s actions := by
  simp only [always_iff_prefixes]
  exact ⟨fun h => ⟨fun done hdone => (h done hdone).1, fun done hdone => (h done hdone).2⟩,
    fun h done hdone => ⟨h.1 done hdone, h.2 done hdone⟩⟩

/-- As `always_iff_of_exact`, where `ok` is exact in the states of an invariant `J`. -/
theorem always_iff_of_exact_under {I J : σ → Prop} {ok : σ → α → Prop}
    (keep : ∀ s a, J s → J (step s a)) (exact : ∀ s a, J s → I s → (I (step s a) ↔ ok s a)) {s : σ}
    {actions : List α} (invariant : J s) (start : I s) :
    Always step I s actions ↔ Along step ok s actions := by
  have both : Always step (fun s => J s ∧ I s) s actions ↔ Along step ok s actions :=
    always_iff_of_exact
      (fun s a h => (and_iff_right (keep s a h.1)).trans (exact s a h.1 h.2)) ⟨invariant, start⟩
  rw [always_and] at both
  exact (and_iff_right (always_of_step keep invariant)).symm.trans both

theorem Always.last {I : σ → Prop} {s : σ} {actions : List α} (h : Always step I s actions) :
    I (actions.foldl step s) := always_iff_prefixes.mp h _ (List.prefix_refl _)

end Lib
