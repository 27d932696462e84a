import Mathlib.Data.List.Pairwise
import Mathlib.Data.List.TakeWhile
import Mathlib.Order.Lattice

/-! Finite maps kept in the order of their keys, as `std::map` keeps them.  The order is a field, so
a scan from the first entry meets the keys in increasing order without a further argument. -/

namespace Lib

instance linearOrderUInt64 : LinearOrder UInt64 where
  le_refl := UInt64.le_refl
  le_trans := fun _ _ _ => UInt64.le_trans
  lt_iff_le_not_ge := fun a b => by
    simp only [UInt64.lt_iff_toNat_lt, UInt64.le_iff_toNat_le]
    omega
  le_antisymm := fun _ _ => UInt64.le_antisymm
  le_total := UInt64.le_total
  toDecidableLE := inferInstance
  toDecidableLT := inferInstance
  toDecidableEq := inferInstance

/-- A finite map with its entries in strictly increasing order of their keys. -/
structure OrderedMap (κ α : Type) [LinearOrder κ] where
  entries : List (κ × α)
  sorted : entries.Pairwise fun a b => a.1 < b.1

namespace OrderedMap

variable {κ α : Type} [LinearOrder κ]

instance : EmptyCollection (OrderedMap κ α) := ⟨⟨[], .nil⟩⟩

/-- The entries after an assignment to `k`: its entry is replaced, or added in its place. -/
def assign (k : κ) (v : α) : List (κ × α) → List (κ × α)
  | [] => [(k, v)]
  | e :: rest =>
    if k < e.1 then (k, v) :: e :: rest
    else if e.1 < k then e :: assign k v rest
    else (k, v) :: rest

theorem mem_assign_of_sorted {k : κ} {v : α} {l : List (κ × α)}
    (sorted : l.Pairwise fun a b => a.1 < b.1) {e : κ × α} :
    e ∈ assign k v l ↔ e = (k, v) ∨ e ∈ l ∧ e.1 ≠ k := by
  induction l with
  | nil => simp [assign]
  | cons d rest ih =>
    obtain ⟨below, sorted⟩ := List.pairwise_cons.mp sorted
    simp only [assign]
    split
    · rename_i before
      have other : ∀ e ∈ d :: rest, e.1 ≠ k := by
        intro e he
        rcases List.mem_cons.mp he with rfl | he
        · exact before.ne'
        · exact (before.trans (below e he)).ne'
      simp only [List.mem_cons]
      constructor
      · rintro (h | h)
        · exact .inl h
        · exact .inr ⟨h, other e (List.mem_cons.mpr h)⟩
      · rintro (h | ⟨h, -⟩)
        · exact .inl h
        · exact .inr h
    · split
      · rename_i after
        rw [List.mem_cons, ih sorted, List.mem_cons]
        constructor
        · rintro (rfl | h | ⟨h, ne⟩)
          · exact .inr ⟨.inl rfl, after.ne⟩
          · exact .inl h
          · exact .inr ⟨.inr h, ne⟩
        · rintro (h | ⟨rfl | h, ne⟩)
          · exact .inr (.inl h)
          · exact .inl rfl
          · exact .inr (.inr ⟨h, ne⟩)
      · rename_i notBefore notAfter
        obtain rfl : k = d.1 := le_antisymm (not_lt.mp notAfter) (not_lt.mp notBefore)
        simp only [List.mem_cons]
        constructor
        · rintro (h | h)
          · exact .inl h
          · exact .inr ⟨.inr h, (below e h).ne'⟩
        · rintro (h | ⟨rfl | h, ne⟩)
          · exact .inl h
          · exact absurd rfl ne
          · exact .inr h

theorem assign_sorted {k : κ} {v : α} {l : List (κ × α)}
    (sorted : l.Pairwise fun a b => a.1 < b.1) :
    (assign k v l).Pairwise fun a b => a.1 < b.1 := by
  induction l with
  | nil => simp [assign]
  | cons d rest ih =>
    obtain ⟨below, rest_sorted⟩ := List.pairwise_cons.mp sorted
    simp only [assign]
    split
    · rename_i before
      refine List.pairwise_cons.mpr ⟨fun e he => ?_, sorted⟩
      rcases List.mem_cons.mp he with rfl | he
      · exact before
      · exact before.trans (below e he)
    · split
      · rename_i after
        refine List.pairwise_cons.mpr ⟨fun e he => ?_, ih rest_sorted⟩
        rcases (mem_assign_of_sorted rest_sorted).mp he with rfl | ⟨he, -⟩
        · exact after
        · exact below e he
      · rename_i notBefore notAfter
        obtain rfl : k = d.1 := le_antisymm (not_lt.mp notAfter) (not_lt.mp notBefore)
        exact List.pairwise_cons.mpr ⟨below, rest_sorted⟩

def insert (m : OrderedMap κ α) (k : κ) (v : α) : OrderedMap κ α :=
  ⟨assign k v m.entries, assign_sorted m.sorted⟩

def erase (m : OrderedMap κ α) (k : κ) : OrderedMap κ α :=
  ⟨m.entries.filter (·.1 ≠ k), m.sorted.filter _⟩

@[simp] theorem mem_insert {m : OrderedMap κ α} {k : κ} {v : α} {e : κ × α} :
    e ∈ (m.insert k v).entries ↔ e = (k, v) ∨ e ∈ m.entries ∧ e.1 ≠ k :=
  mem_assign_of_sorted m.sorted

@[simp] theorem mem_erase {m : OrderedMap κ α} {k : κ} {e : κ × α} :
    e ∈ (m.erase k).entries ↔ e ∈ m.entries ∧ e.1 ≠ k := by
  simp [erase]

theorem mem_eraseAll {ks : List κ} {m : OrderedMap κ α} {e : κ × α} :
    e ∈ (ks.foldl erase m).entries ↔ e ∈ m.entries ∧ e.1 ∉ ks := by
  induction ks generalizing m with
  | nil => simp
  | cons k ks ih => rw [List.foldl_cons, ih, mem_erase, List.mem_cons, not_or, and_assoc]

/-- In a sorted list, a scan that stops at the first key that is not below `c` meets exactly the
entries below `c`. -/
theorem mem_scan_of_sorted {l : List (κ × α)} (sorted : l.Pairwise fun a b => a.1 < b.1) {c : κ}
    {e : κ × α} : e ∈ l.takeWhile (fun e => decide (e.1 < c)) ↔ e ∈ l ∧ e.1 < c := by
  induction l with
  | nil => simp
  | cons d rest ih =>
    obtain ⟨below, sorted⟩ := List.pairwise_cons.mp sorted
    by_cases hd : d.1 < c
    · rw [List.takeWhile_cons_of_pos (by simpa using hd), List.mem_cons, ih sorted, List.mem_cons]
      constructor
      · rintro (rfl | ⟨h, hc⟩)
        · exact ⟨.inl rfl, hd⟩
        · exact ⟨.inr h, hc⟩
      · rintro ⟨rfl | h, hc⟩
        · exact .inl rfl
        · exact .inr ⟨h, hc⟩
    · rw [List.takeWhile_cons_of_neg (by simpa using hd)]
      simp only [List.not_mem_nil, List.mem_cons, false_iff, not_and]
      rintro (rfl | h)
      · exact hd
      · exact fun hc => hd ((below e h).trans hc)

theorem mem_scan {m : OrderedMap κ α} {c : κ} {e : κ × α} :
    e ∈ m.entries.takeWhile (fun e => decide (e.1 < c)) ↔ e ∈ m.entries ∧ e.1 < c :=
  mem_scan_of_sorted m.sorted

end OrderedMap

end Lib
