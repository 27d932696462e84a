import Mathlib.Data.List.Basic

/-! Trees whose children are told apart by keys, where a node is named by the keys on the way to it.
A tree may be seen as the partial function from paths to values, of which a change at one path
alters the value at one path only. -/

namespace Lib

inductive Tree (κ α : Type) : Type
  | node (value : α) (children : List (κ × Tree κ α))

namespace Tree

variable {κ α : Type}

def value : Tree κ α → α
  | node value _ => value

def children : Tree κ α → List (κ × Tree κ α)
  | node _ children => children

def leaf (v : α) : Tree κ α := node v []

def setValue (g : α → α) (t : Tree κ α) : Tree κ α := node (g t.value) t.children

@[simp] theorem children_node (v : α) (children : List (κ × Tree κ α)) :
    (node v children).children = children := rfl

mutual

/-- The values of the nodes, each before those below it. -/
def values : Tree κ α → List α
  | node value children => value :: valuesAll children

def valuesAll : List (κ × Tree κ α) → List α
  | [] => []
  | (_, t) :: rest => t.values ++ valuesAll rest

end

mutual

/-- The tree with its values replaced. -/
def map {β : Type} (f : α → β) : Tree κ α → Tree κ β
  | node value children => node (f value) (mapAll f children)

def mapAll {β : Type} (f : α → β) : List (κ × Tree κ α) → List (κ × Tree κ β)
  | [] => []
  | (k, t) :: rest => (k, t.map f) :: mapAll f rest

end

theorem mapAll_eq {β : Type} (f : α → β) (children : List (κ × Tree κ α)) :
    mapAll f children = children.map fun c => (c.1, c.2.map f) := by
  induction children with
  | nil => rfl
  | cons c rest ih => rw [mapAll, ih, List.map_cons]

theorem mem_valuesAll {v : α} {children : List (κ × Tree κ α)} :
    v ∈ valuesAll children ↔ ∃ c ∈ children, v ∈ c.2.values := by
  induction children with
  | nil => simp [valuesAll]
  | cons c rest ih => simp [valuesAll, ih]

variable [DecidableEq κ]

def child (t : Tree κ α) (k : κ) : Option (Tree κ α) :=
  (t.children.find? fun c => decide (c.1 = k)).map Prod.snd

def find : Tree κ α → List κ → Option (Tree κ α)
  | t, [] => some t
  | t, k :: path => (t.child k).bind (find · path)

def valueAt (t : Tree κ α) (path : List κ) : Option α := (t.find path).map value

/-- A child with the key `k`, unless there is one. -/
def addChild (k : κ) (v : α) (t : Tree κ α) : Tree κ α :=
  if (t.child k).isSome then t else node t.value (t.children ++ [(k, leaf v)])

/-- The tree with `f` applied to the node at the path. -/
def modify (f : Tree κ α → Tree κ α) : List κ → Tree κ α → Tree κ α
  | [], t => f t
  | k :: path, t => node t.value
      (t.children.map fun c => if c.1 = k then (c.1, modify f path c.2) else c)

/-- The nodes on the path, of which those that there are not yet are made by their keys. -/
def addPath (make : κ → α) : List κ → Tree κ α → Tree κ α
  | [], t => t
  | k :: path, t => (t.addChild k (make k)).modify (addPath make path) [k]

variable {t : Tree κ α} {k : κ} {path : List κ}

@[simp] theorem valueAt_nil (t : Tree κ α) : t.valueAt [] = some t.value := rfl

theorem valueAt_cons (t : Tree κ α) (k : κ) (path : List κ) :
    t.valueAt (k :: path) = (t.child k).bind (valueAt · path) := by
  rw [valueAt, find]
  cases t.child k <;> rfl

theorem valueAt_leaf (v : α) (path : List κ) :
    (leaf v : Tree κ α).valueAt path = if path = [] then some v else none := by
  cases path with
  | nil => rfl
  | cons k path => rfl

theorem mem_values_of_valueAt {v : α} (h : t.valueAt path = some v) : v ∈ t.values := by
  induction path generalizing t with
  | nil =>
    obtain ⟨value, children⟩ := t
    obtain rfl : value = v := Option.some.inj h
    simp [values]
  | cons k path ih =>
    obtain ⟨value, children⟩ := t
    rw [valueAt_cons] at h
    obtain ⟨below, hchild, hvalue⟩ := Option.bind_eq_some_iff.mp h
    obtain ⟨c, hfind, rfl⟩ := Option.map_eq_some_iff.mp hchild
    exact .tail _ (mem_valuesAll.mpr ⟨c, List.mem_of_find?_eq_some hfind, ih hvalue⟩)

theorem child_modify (f : Tree κ α → Tree κ α) (t : Tree κ α) (k j : κ) (path : List κ) :
    (t.modify f (k :: path)).child j =
      if j = k then (t.child j).map (modify f path) else t.child j := by
  have keys : ((fun c : κ × Tree κ α => decide (c.1 = j)) ∘ fun c =>
      if c.1 = k then (c.1, modify f path c.2) else c) = fun c => decide (c.1 = j) := by
    funext c
    by_cases h : c.1 = k <;> simp [h]
  rw [child, modify, children_node, List.find?_map, keys, child, Option.map_map]
  cases hfind : t.children.find? fun c => decide (c.1 = j) with
  | none => simp
  | some c =>
    have hkey : c.1 = j := by simpa using List.find?_some hfind
    by_cases h : j = k <;> simp [hkey, h]

@[simp] theorem value_addChild (t : Tree κ α) (k : κ) (v : α) :
    (t.addChild k v).value = t.value := by
  unfold addChild
  split <;> rfl

theorem child_addChild (t : Tree κ α) (k j : κ) (v : α) :
    (t.addChild k v).child j = (t.child j).or (if j = k then some (leaf v) else none) := by
  unfold addChild
  split
  · rename_i some
    by_cases h : j = k
    · subst h
      rw [Option.or_of_isSome some]
    · simp [h]
  · simp only [child, children_node, List.find?_append, Option.map_or]
    congr 1
    by_cases h : k = j
    · simp [h]
    · simp [h, Ne.symm h]

theorem valueAt_setValue (g : α → α) (t : Tree κ α) (path q : List κ) :
    (t.modify (setValue g) path).valueAt q =
      if q = path then (t.valueAt q).map g else t.valueAt q := by
  induction path generalizing t q with
  | nil => cases q <;> rfl
  | cons k path ih =>
    cases q with
    | nil => rfl
    | cons j q =>
      rw [valueAt_cons, child_modify, valueAt_cons]
      by_cases h : j = k
      · subst h
        cases t.child j with
        | none => simp
        | some c => simpa using ih c q
      · simp [h]

theorem valueAt_addChild (t : Tree κ α) (v : α) (path q : List κ) (k : κ) :
    (t.modify (addChild k v) path).valueAt q =
      (t.valueAt q).or (if q = path ++ [k] then (t.valueAt path).map fun _ => v else none) := by
  induction path generalizing t q with
  | nil =>
    cases q with
    | nil => simp [modify]
    | cons j q =>
      rw [modify, valueAt_cons, child_addChild, valueAt_cons]
      by_cases h : j = k
      · subst h
        cases t.child j with
        | some c => by_cases hq : q = [] <;> simp [hq]
        | none => simp [valueAt_leaf]
      · simp [h]
  | cons i path ih =>
    cases q with
    | nil => rfl
    | cons j q =>
      rw [valueAt_cons, child_modify, valueAt_cons, valueAt_cons]
      by_cases h : j = i
      · subst h
        cases t.child j with
        | none => simp
        | some c => simpa using ih c q
      · simp [h]

@[simp] theorem value_addPath (make : κ → α) (t : Tree κ α) (path : List κ) :
    (t.addPath make path).value = t.value := by
  cases path with
  | nil => rfl
  | cons k path => exact value_addChild t k (make k)

theorem valueAt_addPath (make : κ → α) (t : Tree κ α) (path q : List κ) :
    (t.addPath make path).valueAt q =
      (t.valueAt q).or (if q <+: path then q.getLast?.map make else none) := by
  induction path generalizing t q with
  | nil => cases q <;> simp [addPath]
  | cons k path ih =>
    cases q with
    | nil => simp
    | cons j q =>
      rw [addPath, valueAt_cons, child_modify, child_addChild, valueAt_cons]
      by_cases h : j = k
      · subst h
        cases t.child j with
        | some c =>
          have below := ih c q
          cases q <;> simp_all [modify, List.cons_prefix_cons]
        | none =>
          have below := ih (leaf (make j)) q
          rw [valueAt_leaf] at below
          cases q <;> simp_all [modify, List.cons_prefix_cons]
      · simp [h, List.cons_prefix_cons]

/-- A node has all the nodes on its path above it. -/
theorem isSome_valueAt_of_isPrefix {q : List κ} (above : q <+: path)
    (h : (t.valueAt path).isSome) : (t.valueAt q).isSome := by
  induction q generalizing t path with
  | nil => rfl
  | cons j q ih =>
    obtain ⟨path, rfl, short⟩ := List.cons_prefix_iff.mp above
    rw [valueAt_cons] at h ⊢
    cases hc : t.child j with
    | none =>
      rw [hc] at h
      cases h
    | some c =>
      rw [hc] at h
      exact ih short h

theorem child_map {β : Type} (f : α → β) (t : Tree κ α) (k : κ) :
    (t.map f).child k = (t.child k).map (map f) := by
  obtain ⟨value, children⟩ := t
  rw [map, mapAll_eq, child, children_node, child, children_node, List.find?_map, Option.map_map,
    Option.map_map]
  rfl

theorem find_map {β : Type} (f : α → β) (t : Tree κ α) (path : List κ) :
    (t.map f).find path = (t.find path).map (map f) := by
  induction path generalizing t with
  | nil => rfl
  | cons k path ih =>
    rw [find, child_map, find]
    cases t.child k with
    | none => rfl
    | some c => exact ih c

theorem valueAt_map {β : Type} (f : α → β) (t : Tree κ α) (path : List κ) :
    (t.map f).valueAt path = (t.valueAt path).map f := by
  rw [valueAt, find_map, valueAt, Option.map_map, Option.map_map]
  congr 1
  funext ⟨value, children⟩
  rfl

end Tree

end Lib
