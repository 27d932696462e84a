import Mathlib.Data.Finmap

/-! Finite maps without an order, as `std::unordered_map`: Mathlib's `Finmap`, and the effect of a
list of assignments made one after the other, of which the last one to a key counts. -/

namespace Lib

abbrev UnorderedMap (κ α : Type) := Finmap fun _ : κ => α

variable {κ α : Type} [DecidableEq κ]

/-- `m[k] = v` for each pair of the list, from the first to the last. -/
def assignAll (es : List (κ × α)) (m : UnorderedMap κ α) : UnorderedMap κ α :=
  es.foldl (fun m e => m.insert e.1 e.2) m

/-- The value that the last pair with key `k` gives it. -/
def lastValue (es : List (κ × α)) (k : κ) : Option α :=
  (es.reverse.find? (·.1 = k)).map Prod.snd

theorem lastValue_cons (e : κ × α) (es : List (κ × α)) (k : κ) :
    lastValue (e :: es) k = (lastValue es k).or (if e.1 = k then some e.2 else none) := by
  simp only [lastValue, List.reverse_cons, List.find?_append, Option.map_or]
  congr 1
  by_cases h : e.1 = k <;> simp [h]

theorem lastValue_append (ds es : List (κ × α)) (k : κ) :
    lastValue (ds ++ es) k = (lastValue es k).or (lastValue ds k) := by
  simp [lastValue, List.find?_append, Option.map_or]

theorem lastValue_eq_none {es : List (κ × α)} {k : κ} :
    lastValue es k = none ↔ k ∉ es.map Prod.fst := by
  simp only [lastValue, Option.map_eq_none_iff, List.find?_eq_none, List.mem_reverse,
    decide_eq_true_eq, List.mem_map, not_exists, not_and]

theorem lastValue_eq_some {es : List (κ × α)} {k : κ} {v : α} :
    lastValue es k = some v ↔
      ∃ before after, es = before ++ (k, v) :: after ∧ k ∉ after.map Prod.fst := by
  constructor
  · intro h
    obtain ⟨⟨k', v'⟩, hfind, rfl⟩ := Option.map_eq_some_iff.mp h
    obtain ⟨hk, after, before, parts, other⟩ := List.find?_eq_some_iff_append.mp hfind
    obtain rfl : k' = k := by simpa using hk
    refine ⟨before.reverse, after.reverse, ?_, ?_⟩
    · have := congrArg List.reverse parts
      simpa using this
    · intro hmem
      obtain ⟨e, he, hek⟩ := List.mem_map.mp hmem
      simpa [hek] using other e (List.mem_reverse.mp he)
  · rintro ⟨before, after, rfl, other⟩
    rw [lastValue_append, lastValue_cons, lastValue_eq_none.mpr other]
    simp

theorem mem_of_lastValue {es : List (κ × α)} {k : κ} {v : α} (h : lastValue es k = some v) :
    (k, v) ∈ es := by
  obtain ⟨before, after, rfl, -⟩ := lastValue_eq_some.mp h
  simp

theorem lastValue_filterMap_eq_some {β : Type} {f : β → Option (κ × α)} {xs : List β} {k : κ}
    {v : α} :
    lastValue (xs.filterMap f) k = some v ↔
      ∃ before x after, xs = before ++ x :: after ∧ f x = some (k, v) ∧
        ∀ y ∈ after, ∀ v', f y ≠ some (k, v') := by
  have others (after : List β) :
      k ∉ (after.filterMap f).map Prod.fst ↔ ∀ y ∈ after, ∀ v', f y ≠ some (k, v') := by
    simp only [List.mem_map, List.mem_filterMap, Prod.exists, exists_and_right, exists_eq_right,
      not_exists, not_and, ne_eq]
    exact ⟨fun h y hy v' => h v' y hy, fun h v' y hy => h y hy v'⟩
  rw [lastValue_eq_some]
  constructor
  · intro ⟨before, after, parts, other⟩
    obtain ⟨xs₁, xs₂, rfl, -, hcons⟩ := List.filterMap_eq_append_iff.mp parts
    obtain ⟨skipped, x, rest, rfl, -, hx, rfl⟩ := List.filterMap_eq_cons_iff.mp hcons
    exact ⟨xs₁ ++ skipped, x, rest, by simp, hx, (others rest).mp other⟩
  · intro ⟨before, x, after, hxs, hx, other⟩
    refine ⟨before.filterMap f, after.filterMap f, ?_, (others after).mpr other⟩
    rw [hxs, List.filterMap_append, List.filterMap_cons_some hx]

theorem lastValue_of_nodup {es : List (κ × α)} (distinct : (es.map Prod.fst).Nodup) {k : κ}
    {v : α} : lastValue es k = some v ↔ (k, v) ∈ es := by
  rw [lastValue_eq_some]
  constructor
  · rintro ⟨before, after, rfl, -⟩
    simp
  · intro hmem
    obtain ⟨before, after, rfl⟩ := List.append_of_mem hmem
    refine ⟨before, after, rfl, ?_⟩
    rw [List.map_append, List.map_cons] at distinct
    exact (List.nodup_cons.mp distinct.of_append_right).1

/-- The value that the first pair with key `k` gives it. -/
def firstValue (es : List (κ × α)) (k : κ) : Option α := (es.find? (·.1 = k)).map Prod.snd

theorem firstValue_cons (e : κ × α) (es : List (κ × α)) (k : κ) :
    firstValue (e :: es) k = (if e.1 = k then some e.2 else none).or (firstValue es k) := by
  by_cases h : e.1 = k <;> simp [firstValue, h]

theorem firstValue_append (ds es : List (κ × α)) (k : κ) :
    firstValue (ds ++ es) k = (firstValue ds k).or (firstValue es k) := by
  simp [firstValue, List.find?_append, Option.map_or]

@[simp] theorem assignAll_nil (m : UnorderedMap κ α) : assignAll [] m = m := rfl

theorem assignAll_cons (e : κ × α) (es : List (κ × α)) (m : UnorderedMap κ α) :
    assignAll (e :: es) m = assignAll es (m.insert e.1 e.2) := rfl

theorem assignAll_append (ds es : List (κ × α)) (m : UnorderedMap κ α) :
    assignAll (ds ++ es) m = assignAll es (assignAll ds m) := List.foldl_append

theorem lookup_assignAll (es : List (κ × α)) (m : UnorderedMap κ α) (k : κ) :
    (assignAll es m).lookup k = (lastValue es k).or (m.lookup k) := by
  induction es generalizing m with
  | nil => rfl
  | cons e es ih =>
    rw [assignAll_cons, ih, lastValue_cons, Option.or_assoc]
    congr 1
    by_cases h : e.1 = k
    · subst h
      simp
    · rw [Finmap.lookup_insert_of_ne _ (Ne.symm h)]
      simp [h]

theorem mem_assignAll {es : List (κ × α)} {m : UnorderedMap κ α} {k : κ} :
    k ∈ assignAll es m ↔ k ∈ es.map Prod.fst ∨ k ∈ m := by
  rw [← not_iff_not, not_or, ← Finmap.lookup_eq_none, ← Finmap.lookup_eq_none, lookup_assignAll,
    Option.or_eq_none_iff, lastValue_eq_none]

theorem assignAll_idem (es : List (κ × α)) (m : UnorderedMap κ α) :
    assignAll es (assignAll es m) = assignAll es m := by
  refine Finmap.ext_lookup fun k => ?_
  rw [lookup_assignAll, lookup_assignAll, ← Option.or_assoc, Option.or_self]

end Lib
