import Mathlib.Data.List.Basic

/-! Lists in which some elements open and close named brackets.  A walk over the list keeps a stack
of the names that are open, and a list is balanced where it closes what it opens and nothing
else. -/

namespace Lib

inductive Tag (ν : Type)
  | plain
  | opens (n : ν)
  | closes (n : ν)

variable {α ν : Type} (tag : α → Tag ν)

inductive Balanced : List α → Prop
  | nil : Balanced []
  | plain {a : α} {rest : List α} (ha : tag a = .plain) (hrest : Balanced rest) :
      Balanced (a :: rest)
  | pair {a c : α} {n : ν} {body rest : List α} (ha : tag a = .opens n) (hc : tag c = .closes n)
      (hbody : Balanced body) (hrest : Balanced rest) : Balanced (a :: body ++ c :: rest)

variable [DecidableEq ν]

/-- The names that are open after the list, innermost first; `none` where a bracket is closed that
is not the innermost one. -/
def walk : List α → List ν → Option (List ν)
  | [], names => some names
  | a :: rest, names =>
    match tag a, names with
    | .plain, names => walk rest names
    | .opens n, names => walk rest (n :: names)
    | .closes n, m :: names => if m = n then walk rest names else none
    | .closes _, [] => none

variable {tag}

theorem walk_plain {a : α} (h : tag a = .plain) (rest : List α) (names : List ν) :
    walk tag (a :: rest) names = walk tag rest names := by
  simp only [walk, h]

theorem walk_opens {a : α} {n : ν} (h : tag a = .opens n) (rest : List α) (names : List ν) :
    walk tag (a :: rest) names = walk tag rest (n :: names) := by
  simp only [walk, h]

theorem walk_closes {a : α} {n : ν} (h : tag a = .closes n) (rest : List α) (m : ν)
    (names : List ν) :
    walk tag (a :: rest) (m :: names) = if m = n then walk tag rest names else none := by
  simp only [walk, h]

theorem walk_append (before after : List α) (names : List ν) :
    walk tag (before ++ after) names = (walk tag before names).bind (walk tag after) := by
  induction before generalizing names with
  | nil => rfl
  | cons a rest ih =>
    cases ha : tag a with
    | plain => rw [List.cons_append, walk_plain ha, walk_plain ha, ih]
    | opens n => rw [List.cons_append, walk_opens ha, walk_opens ha, ih]
    | closes n =>
      cases names with
      | nil => simp only [List.cons_append, walk, ha, Option.bind_none]
      | cons m names =>
        rw [List.cons_append, walk_closes ha, walk_closes ha]
        split
        · exact ih names
        · rfl

/-- A walk that ends below a name that was open has closed it, after a balanced part. -/
theorem exists_close {xs : List α} {m : ν} {names out : List ν}
    (h : walk tag xs (m :: names) = some out) (short : out.length ≤ names.length) :
    ∃ body c rest, xs = body ++ c :: rest ∧ tag c = .closes m ∧ Balanced tag body ∧
      walk tag rest names = some out := by
  match xs with
  | [] =>
    obtain rfl : m :: names = out := Option.some.inj h
    exact absurd short (by simp)
  | a :: xs =>
    cases ha : tag a with
    | plain =>
      rw [walk_plain ha] at h
      obtain ⟨body, c, rest, rfl, hc, hbody, hrest⟩ := exists_close h short
      exact ⟨a :: body, c, rest, rfl, hc, .plain ha hbody, hrest⟩
    | closes n =>
      rw [walk_closes ha] at h
      split at h
      · rename_i same
        exact ⟨[], a, xs, rfl, by rw [ha, same], .nil, h⟩
      · cases h
    | opens n =>
      rw [walk_opens ha] at h
      -- The bracket that is opened here is closed first, and the rest of the list is shorter.
      obtain ⟨inner, d, after, hxs, hd, hinner, hafter⟩ := exists_close h (by simp; omega)
      have shorter : after.length < (a :: xs).length := by
        rw [hxs]
        simp
        omega
      obtain ⟨body, c, rest, hsplit, hc, hbody, hrest⟩ := exists_close hafter short
      refine ⟨a :: inner ++ d :: body, c, rest, ?_, hc, .pair ha hd hinner hbody, hrest⟩
      rw [hxs, hsplit]
      simp
termination_by xs.length

end Lib
