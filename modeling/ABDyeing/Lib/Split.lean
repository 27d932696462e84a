import Mathlib.Data.List.Basic

/-! Splitting a list at separators and joining it again, beside `List.splitOnP` and
`List.intercalate`: the separators may be any set, and the list is joined with one of them. -/

namespace Lib

variable {α : Type} {p : α → Bool}

theorem splitOnP_at {xs : List α} {k : Nat} (hk : k < xs.length) (hsep : p xs[k] = true)
    (before : ∀ j (hj : j < k), p xs[j] = false) :
    xs.splitOnP p = xs.take k :: (xs.drop (k + 1)).splitOnP p := by
  have parts : xs = xs.take k ++ xs[k] :: xs.drop (k + 1) := by
    rw [List.getElem_cons_drop, List.take_append_drop]
  conv => lhs; rw [parts]
  refine List.splitOnP_append_cons_of_forall_mem (fun x hx => ?_) _ hsep _
  obtain ⟨j, hj, rfl⟩ := List.getElem_of_mem hx
  rw [List.getElem_take]
  exact before j (by simp at hj; omega)

/-- Joining fields that hold no separator and splitting the result gives the fields back. -/
theorem splitOnP_intercalate {sep : α} (hsep : p sep = true) {fields : List (List α)}
    (clean : ∀ f ∈ fields, ∀ x ∈ f, p x = false) (nonempty : fields ≠ []) :
    ([sep].intercalate fields).splitOnP p = fields := by
  induction fields with
  | nil => exact absurd rfl nonempty
  | cons f rest ih =>
    have hf := clean f (by simp)
    cases rest with
    | nil => simpa using List.splitOnP_eq_singleton hf
    | cons g rest =>
      rw [List.intercalate_cons_cons, List.append_assoc, List.singleton_append,
        List.splitOnP_append_cons_of_forall_mem hf sep hsep,
        ih (fun h hh => clean h (List.mem_cons_of_mem _ hh)) (by simp)]

theorem forall_mem_intercalate {q : α → Prop} {sep : α} (hsep : q sep) {fields : List (List α)}
    (clean : ∀ f ∈ fields, ∀ x ∈ f, q x) : ∀ x ∈ [sep].intercalate fields, q x := by
  induction fields with
  | nil => simp
  | cons f rest ih =>
    have hf := clean f (by simp)
    cases rest with
    | nil => simpa using hf
    | cons g rest =>
      rw [List.intercalate_cons_cons]
      intro x hx
      rcases List.mem_append.mp hx with hx | hx
      · rcases List.mem_append.mp hx with hx | hx
        · exact hf x hx
        · exact (List.mem_singleton.mp hx) ▸ hsep
      · exact ih (fun h hh => clean h (List.mem_cons_of_mem _ hh)) x hx

end Lib
