import ABDyeing.QConfig
import ABDyeing.Util

/-! The loop over the business types with which both plugins of the configuration store load their
nodes.  Its verdict is the one on the last type. -/

namespace ABDyeing

open Lib

def fullPath (pathPrefix businessType : Bytes) : Bytes :=
  pathPrefix ++ str "/" ++ businessType ++ str "/value"

/-- The list of types that the loop runs over. -/
def effectiveTypes (qvalue : Bytes) (businessTypes : List Bytes) : List Bytes :=
  let tmpBusinessTypes := if qvalue.isEmpty then [] else sepstr qvalue (str "|") true
  if tmpBusinessTypes.isEmpty then businessTypes else tmpBusinessTypes

section Load

variable {α : Type} (loadInternal : α → Bytes → Load (Bool × α))

def loadTypes : List Bytes → Bool → α → Load (Bool × α)
  | [], rtval, plugin => return (rtval, plugin)
  | businessType :: rest, _, plugin => do
    let (rtval, plugin) ← loadInternal plugin businessType
    loadTypes rest rtval plugin

/-- `loadConfig` of a plugin with this prefix and this `loadInternal`. -/
def loadConfigWith (store : Store) (pathPrefix : Bytes) (plugin : α) (businessTypes : List Bytes) :
    Load (Bool × α) := do
  let qvalue ← qconfGet store (pathPrefix ++ str "/value") []
  loadTypes loadInternal (effectiveTypes qvalue businessTypes) false plugin

variable {loadInternal}

/-- What loading a type keeps, the whole load keeps. -/
theorem loadTypes_invariant {P : α → Prop}
    (keep : ∀ plugin t n r m, P plugin → loadInternal plugin t n = .ok (r, m) → P r.2)
    {types : List Bytes} {rtval : Bool} {plugin : α} {n m : Nat} {r : Bool × α} (start : P plugin)
    (h : loadTypes loadInternal types rtval plugin n = .ok (r, m)) : P r.2 := by
  induction types generalizing rtval plugin n with
  | nil =>
    obtain ⟨rfl, -⟩ := Prod.mk.inj (Except.ok.inj h)
    exact start
  | cons t types ih =>
    obtain ⟨⟨first, n'⟩, hfirst, h⟩ := bind_eq_ok.mp h
    exact ih (keep plugin t n first n' start hfirst) h

theorem loadConfigWith_invariant {P : α → Prop}
    (keep : ∀ plugin t n r m, P plugin → loadInternal plugin t n = .ok (r, m) → P r.2)
    {store : Store} {pathPrefix : Bytes} {plugin : α} {types : List Bytes} {n m : Nat}
    {r : Bool × α} (start : P plugin)
    (h : loadConfigWith loadInternal store pathPrefix plugin types n = .ok (r, m)) : P r.2 := by
  obtain ⟨⟨qvalue, n'⟩, -, h⟩ := bind_eq_ok.mp h
  exact loadTypes_invariant keep start h

variable {load : α → Bytes → Bool × α} {k : Nat}
  (each : ∀ i < k, ∀ plugin t, loadInternal plugin t i = .ok (load plugin t, i + 1))

include each

theorem loadTypes_before (types : List Bytes) (rtval : Bool) (plugin : α) {n : Nat}
    (h : n + types.length ≤ k) :
    loadTypes loadInternal types rtval plugin n =
      .ok (types.foldl (fun r t => load r.2 t) (rtval, plugin), n + types.length) := by
  induction types generalizing rtval plugin n with
  | nil => rfl
  | cons t types ih =>
    rw [List.length_cons] at h
    simp only [loadTypes, bind, StateT.bind, each n (by omega), Except.bind, List.foldl_cons,
      List.length_cons]
    rw [ih _ _ (by omega), Nat.add_assoc, Nat.add_comm 1]

theorem loadTypes_fails
    (fails : ∀ plugin t, ∃ e, loadInternal plugin t k = .error (.exception e))
    (types : List Bytes) (rtval : Bool) (plugin : α) {n : Nat} (hle : n ≤ k)
    (hlt : k < n + types.length) :
    ∃ e, loadTypes loadInternal types rtval plugin n = .error (.exception e) := by
  induction types generalizing rtval plugin n with
  | nil => exact absurd hlt (by simpa using hle)
  | cons t types ih =>
    rw [List.length_cons] at hlt
    rcases Nat.eq_or_lt_of_le hle with rfl | hbefore
    · obtain ⟨e, he⟩ := fails plugin t
      exact ⟨e, by simp only [loadTypes, bind, StateT.bind, he, Except.bind]⟩
    · obtain ⟨e, he⟩ := ih (load plugin t).1 (load plugin t).2 hbefore (by omega)
      exact ⟨e, by simp only [loadTypes, bind, StateT.bind, each n hbefore, Except.bind, he]⟩

theorem loadConfigWith_before {store : Store} {node : Bytes → Bytes}
    (reads : ∀ i < k, store.Reads node i) (pathPrefix : Bytes) (plugin : α)
    (businessTypes : List Bytes) {n : Nat}
    (h : n + 1 + (effectiveTypes (node (pathPrefix ++ str "/value")) businessTypes).length ≤ k) :
    loadConfigWith loadInternal store pathPrefix plugin businessTypes n =
      let types := effectiveTypes (node (pathPrefix ++ str "/value")) businessTypes
      .ok (types.foldl (fun r t => load r.2 t) (false, plugin), n + 1 + types.length) := by
  simp only [loadConfigWith, bind, StateT.bind, reads n (by omega) _, Except.bind,
    loadTypes_before each _ _ _ h]

theorem loadConfigWith_fails {store : Store} {node : Bytes → Bytes} (failsAt : store.FailsAt node k)
    (fails : ∀ plugin t, ∃ e, loadInternal plugin t k = .error (.exception e))
    (pathPrefix : Bytes) (plugin : α) (businessTypes : List Bytes) {n : Nat} (hle : n ≤ k)
    (hlt : k <
      n + 1 + (effectiveTypes (node (pathPrefix ++ str "/value")) businessTypes).length) :
    ∃ e, loadConfigWith loadInternal store pathPrefix plugin businessTypes n =
      .error (.exception e) := by
  rcases Nat.eq_or_lt_of_le hle with rfl | hbefore
  · obtain ⟨e, he⟩ := failsAt.throws (pathPrefix ++ str "/value")
    exact ⟨e, by simp only [loadConfigWith, bind, StateT.bind, he, Except.bind]⟩
  · obtain ⟨e, he⟩ := loadTypes_fails each fails
      (effectiveTypes (node (pathPrefix ++ str "/value")) businessTypes) false plugin hbefore hlt
    exact ⟨e, by
      simp only [loadConfigWith, bind, StateT.bind, failsAt.before n hbefore _, Except.bind, he]⟩

end Load

end ABDyeing
