import Mathlib.Init

/-! What a C++ call can do instead of returning: throw an exception, which a handler may catch, or
run into undefined behaviour, which no handler sees. -/

namespace Lib

/-- Why a call did not return. -/
inductive Abort (ε : Type)
  | exception (e : ε)
  | undefined
  deriving DecidableEq

abbrev Outcome (ε α : Type) := Except (Abort ε) α

variable {ε α β : Type}

def catching (x : Outcome ε α) (handler : ε → Outcome ε α) : Outcome ε α :=
  match x with
  | .ok a => .ok a
  | .error (.exception e) => handler e
  | .error .undefined => .error .undefined

def mapException {δ : Type} (f : ε → δ) : Outcome ε α → Outcome δ α
  | .ok a => .ok a
  | .error (.exception e) => .error (.exception (f e))
  | .error .undefined => .error .undefined

/-- `v[i]` of a vector, which the vector does not check. -/
def vectorAt (v : List α) (i : Nat) : Outcome ε α :=
  match v[i]? with
  | some a => .ok a
  | none => .error .undefined

theorem bind_eq_ok {x : Outcome ε α} {f : α → Outcome ε β} {b : β} :
    x >>= f = .ok b ↔ ∃ a, x = .ok a ∧ f a = .ok b := by
  cases x with
  | error e => simp [bind, Except.bind]
  | ok a => simp [bind, Except.bind]

theorem bind_defined {x : Outcome ε α} {f : α → Outcome ε β} (first : x ≠ .error .undefined)
    (rest : ∀ a, f a ≠ .error .undefined) : x >>= f ≠ .error .undefined := by
  cases x with
  | error e =>
    intro undefined
    exact first (congrArg _ (Except.error.inj undefined))
  | ok a => exact rest a

theorem foldlM_append_of_ok {f : β → α → Outcome ε β} {before : List α} {b c : β}
    (h : before.foldlM f b = .ok c) (after : List α) :
    (before ++ after).foldlM f b = after.foldlM f c := by
  rw [List.foldlM_append, h]
  rfl

end Lib
