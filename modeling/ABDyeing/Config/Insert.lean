import Mathlib.Data.Set.Basic
import ABDyeing.Config.Document

/-! `insertDomain` and `insertDomainParam`, which add to a configuration what is not in it yet.

Seen from outside, a configuration is a set of domains and a partial function from parameters to
values.  On this view an insertion is a few lines of set theory, and the tree follows it in every
run. -/

namespace ABDyeing

open Lib

namespace Domain

/-- One entry of `insertParamValue`: `map::insert` leaves a parameter alone that is there. -/
def insertParam (domain : Domain) (p : Bytes × Bytes) : Domain :=
  if (domain.param p.1).isSome then domain else { domain with params := domain.params ++ [p] }

/-- `insertParamValue`, of the entries of a map. -/
def insertParamValue (m : List (Bytes × Bytes)) (domain : Domain) : Domain :=
  m.foldl insertParam domain

theorem param_insertParam (domain : Domain) (p : Bytes × Bytes) (name : Bytes) :
    (domain.insertParam p).param name =
      (domain.param name).or (if p.1 = name then some p.2 else none) := by
  unfold insertParam
  split
  · rename_i there
    by_cases h : p.1 = name
    · subst h
      rw [Option.or_of_isSome there]
    · simp [h]
  · simp only [param, List.find?_append, Option.map_or]
    congr 1
    by_cases h : p.1 = name <;> simp [h]

theorem param_insertParamValue (m : List (Bytes × Bytes)) (domain : Domain) (name : Bytes) :
    (insertParamValue m domain).param name = (domain.param name).or (firstValue m name) := by
  induction m generalizing domain with
  | nil => exact (Option.or_none).symm
  | cons p m ih =>
    rw [insertParamValue, List.foldl_cons]
    exact (ih _).trans (by rw [param_insertParam, firstValue_cons, Option.or_assoc])

end Domain

namespace Config

/-- The root with the domain at the path in it; `none` where it may not be created. -/
def reach (config : Config) (domains : List Bytes) (bCreate : Bool) : Option ConfigDomain :=
  match config.searchDomain domains with
  | some _ => some config.root
  | none => if bCreate then some (config.root.addPath Domain.new domains) else none

def insertDomain (config : Config) (sCurDomain sAddDomain : Bytes) (bCreate : Bool) :
    Outcome ConfigException (Int32 × Config) := do
  let dp ← parseDomainName sCurDomain false
  match config.reach dp.domains bCreate with
  | none => return (-1, config)
  | some root => return (0, ⟨root.modify (.addChild sAddDomain (.new sAddDomain)) dp.domains⟩)

def insertDomainParam (config : Config) (sCurDomain : Bytes) (m : List (Bytes × Bytes))
    (bCreate : Bool) : Outcome ConfigException (Int32 × Config) := do
  let dp ← parseDomainName sCurDomain false
  match config.reach dp.domains bCreate with
  | none => return (-1, config)
  | some root => return (0, ⟨root.modify (.setValue (Domain.insertParamValue m)) dp.domains⟩)

end Config

inductive Insertion
  | domain (sCurDomain sAddDomain : Bytes) (bCreate : Bool)
  | params (sCurDomain : Bytes) (m : List (Bytes × Bytes)) (bCreate : Bool)

namespace Insertion

def apply (config : Config) : Insertion → Outcome ConfigException (Int32 × Config)
  | domain sCurDomain sAddDomain bCreate => config.insertDomain sCurDomain sAddDomain bCreate
  | params sCurDomain m bCreate => config.insertDomainParam sCurDomain m bCreate

/-- The configuration afterwards, which an exception leaves as it was. -/
def step (config : Config) (insertion : Insertion) : Config :=
  match insertion.apply config with
  | .ok (_, config) => config
  | .error _ => config

def sCurDomain : Insertion → Bytes
  | domain sCurDomain _ _ => sCurDomain
  | params sCurDomain _ _ => sCurDomain

def bCreate : Insertion → Bool
  | domain _ _ bCreate => bCreate
  | params _ _ bCreate => bCreate

/-- The path of the domain that it inserts into, if its text is one. -/
def path (insertion : Insertion) : Option (List Bytes) :=
  match parseDomainName insertion.sCurDomain false with
  | .ok dp => some dp.domains
  | .error _ => none

/-- The domains below the path that it adds. -/
def below : Insertion → List Bytes
  | domain _ sAddDomain _ => [sAddDomain]
  | params _ _ _ => []

/-- The parameters that it adds. -/
def entries : Insertion → List (Bytes × Bytes)
  | domain _ _ _ => []
  | params _ m _ => m

end Insertion

/-- Which domains there are, and the values of their parameters. -/
@[ext] structure ConfigView where
  domains : Set (List Bytes)
  value : List Bytes × Bytes → Option Bytes

namespace ConfigView

/-- Everything on the way to the domain and right below it, and the parameters that the domain does
not have. -/
def add (view : ConfigView) (path below : List Bytes) (m : List (Bytes × Bytes)) : ConfigView where
  domains := view.domains ∪ {d | d <+: path ∨ ∃ name ∈ below, d = path ++ [name]}
  value q := (view.value q).or (if q.1 = path then firstValue m q.2 else none)

open Classical in
/-- What an insertion is for: it adds, if the domain is there or may be created. -/
noncomputable def step (view : ConfigView) (insertion : Insertion) : ConfigView :=
  match insertion.path with
  | none => view
  | some path =>
    if path ∈ view.domains ∨ insertion.bCreate = true then
      view.add path insertion.below insertion.entries
    else view

end ConfigView

def Config.view (config : Config) : ConfigView :=
  ⟨{d | (config.searchDomain d).isSome}, paramOf config.root⟩

section Refines

variable {root : ConfigDomain} {path : List Bytes}

theorem ConfigView.add_add (view : ConfigView) (path below : List Bytes)
    (m : List (Bytes × Bytes)) :
    (view.add path [] []).add path below m = view.add path below m := by
  ext d
  · simp only [add, List.not_mem_nil, Set.mem_union, Set.mem_ofPred_eq, false_and, exists_false,
      or_false]
    tauto
  · simp only [add, firstValue, List.find?_nil, Option.map_none, ite_self, Option.or_none]

theorem view_addPath (root : ConfigDomain) (path : List Bytes) :
    (Config.mk (root.addPath .new path)).view = (Config.mk root).view.add path [] [] := by
  ext d
  · rw [Config.view, Set.mem_ofPred_eq, Config.searchDomain, Tree.valueAt_addPath]
    cases d with
    | nil => simp [Config.view, ConfigView.add, Config.searchDomain]
    | cons k d =>
      have last : ∃ v, ((k :: d).getLast?.map Domain.new) = some v := by
        rw [List.getLast?_cons]
        exact ⟨_, rfl⟩
      obtain ⟨v, last⟩ := last
      by_cases h : (k :: d) <+: path <;>
        simp [Config.view, ConfigView.add, Config.searchDomain, last, h]
  · obtain ⟨d, name⟩ := d
    simp only [Config.view, ConfigView.add, paramOf, Tree.valueAt_addPath]
    cases root.valueAt d with
    | some before => simp [firstValue]
    | none =>
      by_cases h : d <+: path
      · cases d.getLast? <;> simp [h, firstValue, Domain.param, Domain.new]
      · simp [h, firstValue]

/-- Below a domain that is there, a new one is added. -/
theorem view_addChild (there : path ∈ (Config.mk root).view.domains) (name : Bytes) :
    (Config.mk (root.modify (.addChild name (.new name)) path)).view =
      (Config.mk root).view.add path [name] [] := by
  obtain ⟨domain, hdomain⟩ := Option.isSome_iff_exists.mp there
  have hdomain : root.valueAt path = some domain := hdomain
  ext d
  · simp only [Config.view, ConfigView.add, Config.searchDomain, Tree.valueAt_addChild, hdomain,
      Set.mem_ofPred_eq, Set.mem_union, List.mem_singleton, exists_eq_left, Option.isSome_or,
      Bool.or_eq_true]
    constructor
    · rintro (h | h)
      · exact .inl h
      · refine .inr (.inr ?_)
        by_contra other
        rw [if_neg other] at h
        cases h
    · rintro (h | above | rfl)
      · exact .inl h
      · exact .inl (Tree.isSome_valueAt_of_isPrefix above (by rw [hdomain]; rfl))
      · simp
  · have same := ParseState.paramOf_opening (s := ⟨root, []⟩) hdomain name d
    simp only [Config.view, ConfigView.add, firstValue, List.find?_nil, Option.map_none, ite_self,
      Option.or_none]
    rw [same]

/-- The parameters that a domain does not have are added to it. -/
theorem view_insertParamValue (there : path ∈ (Config.mk root).view.domains)
    (m : List (Bytes × Bytes)) :
    (Config.mk (root.modify (.setValue (Domain.insertParamValue m)) path)).view =
      (Config.mk root).view.add path [] m := by
  obtain ⟨domain, hdomain⟩ := Option.isSome_iff_exists.mp there
  have hdomain : root.valueAt path = some domain := hdomain
  ext d
  · have same : (((root.modify (.setValue (Domain.insertParamValue m)) path).valueAt d).isSome) =
        (root.valueAt d).isSome := by
      rw [Tree.valueAt_setValue]
      split
      · exact Option.isSome_map
      · rfl
    simp only [Config.view, ConfigView.add, Config.searchDomain, same, Set.mem_ofPred_eq,
      Set.mem_union, List.not_mem_nil, false_and, exists_false, or_false]
    refine (or_iff_left_of_imp fun above => ?_).symm
    exact Tree.isSome_valueAt_of_isPrefix above (by rw [hdomain]; rfl)
  · obtain ⟨d, name⟩ := d
    simp only [Config.view, ConfigView.add, paramOf, Tree.valueAt_setValue]
    by_cases h : d = path
    · subst h
      simp [hdomain, Domain.param_insertParamValue]
    · simp [h]

end Refines

/-- What an insertion does: it throws, or it is refused and answers -1, or it adds and answers 0. -/
structure Insertion.Does (insertion : Insertion) (config : Config) : Prop where
  throws : insertion.path = none → ∃ e, insertion.apply config = .error e
  refused : ∀ path, insertion.path = some path → path ∉ config.view.domains →
    insertion.bCreate = false → insertion.apply config = .ok (-1, config)
  adds : ∀ path, insertion.path = some path →
    path ∈ config.view.domains ∨ insertion.bCreate = true →
    ∃ after, insertion.apply config = .ok (0, after) ∧
      after.view = config.view.add path insertion.below insertion.entries

section Step

variable (config : Config) {path : List Bytes} {bCreate : Bool}

theorem reach_refused (missing : path ∉ config.view.domains) :
    config.reach path false = none := by
  have none : config.searchDomain path = none := by simpa [Config.view] using missing
  rw [Config.reach, none]
  rfl

theorem reach_adds (may : path ∈ config.view.domains ∨ bCreate = true) :
    ∃ root, config.reach path bCreate = some root ∧ path ∈ (Config.mk root).view.domains ∧
      ∀ below m, (Config.mk root).view.add path below m = config.view.add path below m := by
  unfold Config.reach
  cases h : config.searchDomain path with
  | some domain =>
    refine ⟨config.root, rfl, ?_, fun _ _ => rfl⟩
    change (config.searchDomain path).isSome = true
    rw [h]
    rfl
  | none =>
    have create : bCreate = true := by
      refine may.resolve_left fun there => ?_
      have some : (config.searchDomain path).isSome = true := there
      rw [h] at some
      cases some
    have added := view_addPath config.root path
    refine ⟨config.root.addPath .new path, by rw [create]; rfl, ?_, fun below m => ?_⟩
    · rw [added]
      exact .inr (.inl (List.prefix_refl path))
    · rw [added, ConfigView.add_add]

/-- The tree with what is inserted into the domain at the path. -/
def Insertion.into (path : List Bytes) (root : ConfigDomain) : Insertion → ConfigDomain
  | domain _ sAddDomain _ => root.modify (.addChild sAddDomain (.new sAddDomain)) path
  | params _ m _ => root.modify (.setValue (Domain.insertParamValue m)) path

theorem Insertion.apply_eq (insertion : Insertion) :
    insertion.apply config = (do
      let dp ← parseDomainName insertion.sCurDomain false
      match config.reach dp.domains insertion.bCreate with
      | none => return (-1, config)
      | some root => return (0, ⟨insertion.into dp.domains root⟩)) := by
  cases insertion <;> rfl

theorem Insertion.view_into {root : ConfigDomain} (there : path ∈ (Config.mk root).view.domains)
    (insertion : Insertion) :
    (Config.mk (insertion.into path root)).view =
      (Config.mk root).view.add path insertion.below insertion.entries := by
  cases insertion with
  | domain sCurDomain sAddDomain bCreate => exact view_addChild there sAddDomain
  | params sCurDomain m bCreate => exact view_insertParamValue there m

theorem Insertion.does (insertion : Insertion) : insertion.Does config := by
  cases h : parseDomainName insertion.sCurDomain false with
  | error e =>
    have hnone : insertion.path = none := by rw [path, h]
    have throws : insertion.apply config = .error e := by
      rw [apply_eq, h]
      rfl
    refine ⟨fun _ => ⟨e, throws⟩, fun path hpath => ?_, fun path hpath => ?_⟩
    all_goals
      rw [hnone] at hpath
      cases hpath
  | ok dp =>
    have hsome : insertion.path = some dp.domains := by rw [path, h]
    refine ⟨fun hnone => ?_, fun path hpath missing refused => ?_, fun path hpath may => ?_⟩
    · rw [hsome] at hnone
      cases hnone
    · obtain rfl := Option.some.inj (hsome.symm.trans hpath)
      simp only [apply_eq, h, refused, reach_refused config missing, bind, Except.bind]
      rfl
    · obtain rfl := Option.some.inj (hsome.symm.trans hpath)
      obtain ⟨root, hroot, there, same⟩ := reach_adds config may
      refine ⟨⟨insertion.into dp.domains root⟩, ?_, (view_into there insertion).trans (same _ _)⟩
      simp only [apply_eq, h, hroot, bind, Except.bind]
      rfl

theorem Insertion.view_step (insertion : Insertion) :
    (insertion.step config).view = config.view.step insertion := by
  obtain ⟨throws, refused, adds⟩ := insertion.does config
  unfold step ConfigView.step
  cases hpath : insertion.path with
  | none =>
    obtain ⟨e, he⟩ := throws hpath
    rw [he]
  | some path =>
    by_cases may : path ∈ config.view.domains ∨ insertion.bCreate = true
    · obtain ⟨after, hafter, hview⟩ := adds path hpath may
      rw [hafter]
      exact hview.trans (if_pos may).symm
    · obtain ⟨missing, create⟩ := not_or.mp may
      rw [refused path hpath missing (by simpa using create)]
      exact (if_neg may).symm

end Step

theorem view_run (insertions : List Insertion) (config : Config) :
    (insertions.foldl Insertion.step config).view =
      insertions.foldl ConfigView.step config.view := by
  induction insertions generalizing config with
  | nil => rfl
  | cons insertion insertions ih => rw [List.foldl_cons, ih, insertion.view_step, List.foldl_cons]

/-- In every run of insertions, those that throw and those that are refused included, the
configuration is to its view what the insertions make of the view. -/
theorem insertions_refine (insertions : List Insertion) (config : Config) :
    (insertions.foldl Insertion.step config).view = insertions.foldl ConfigView.step config.view ∧
      ∀ insertion : Insertion, insertion.Does config :=
  ⟨view_run insertions config, Insertion.does config⟩

namespace ConfigView

variable {view : ConfigView} {q : List Bytes × Bytes} {v : Bytes}

theorem add_value_of_some (h : view.value q = some v) (path below : List Bytes)
    (m : List (Bytes × Bytes)) : (view.add path below m).value q = some v := by
  simp only [add, h, Option.some_or]

theorem step_value_of_some (h : view.value q = some v) (insertion : Insertion) :
    (view.step insertion).value q = some v := by
  unfold step
  split
  · exact h
  · split
    · exact add_value_of_some h _ _ _
    · exact h

/-- No run of insertions overrides a value. -/
theorem run_value_of_some (h : view.value q = some v) (insertions : List Insertion) :
    (insertions.foldl step view).value q = some v := by
  induction insertions generalizing view with
  | nil => exact h
  | cons insertion insertions ih => exact ih (step_value_of_some h insertion)

end ConfigView

/-- The parameters that an insertion adds, with the path of their domain. -/
def Insertion.settings (insertion : Insertion) : List ((List Bytes × Bytes) × Bytes) :=
  match insertion.path with
  | none => []
  | some path => insertion.entries.map fun p => ((path, p.1), p.2)

theorem firstValue_settings (path : List Bytes) (m : List (Bytes × Bytes))
    (q : List Bytes × Bytes) :
    firstValue (m.map fun p => ((path, p.1), p.2)) q =
      if q.1 = path then firstValue m q.2 else none := by
  obtain ⟨d, name⟩ := q
  induction m with
  | nil => simp [firstValue]
  | cons p m ih =>
    rw [List.map_cons, firstValue_cons, ih, firstValue_cons]
    by_cases h : d = path
    · subst h
      simp
    · simp [h, Ne.symm h]

namespace ConfigView

theorem step_value_of_create (view : ConfigView) {insertion : Insertion}
    (create : insertion.bCreate = true) (q : List Bytes × Bytes) :
    (view.step insertion).value q = (view.value q).or (firstValue insertion.settings q) := by
  unfold step Insertion.settings
  cases insertion.path with
  | none => exact (Option.or_none).symm
  | some path =>
    simp only
    rw [if_pos (.inr create), add, firstValue_settings]

/-- Where every domain may be created, a parameter that was not there has the first value that is
inserted for it. -/
theorem run_value_of_create (view : ConfigView) {insertions : List Insertion}
    (create : ∀ insertion ∈ insertions, insertion.bCreate = true) (q : List Bytes × Bytes) :
    (insertions.foldl step view).value q =
      (view.value q).or (firstValue (insertions.flatMap Insertion.settings) q) := by
  induction insertions generalizing view with
  | nil => exact (Option.or_none).symm
  | cons insertion insertions ih =>
    obtain ⟨first, create⟩ := List.forall_mem_cons.mp create
    rw [List.foldl_cons, ih _ create, step_value_of_create view first, List.flatMap_cons,
      firstValue_append, Option.or_assoc]

end ConfigView

theorem Document.parses (document : Document) :
    ∃ config, Config.parseString document.text = .ok config ∧
      ∀ q, config.view.value q = lastValue (document.settings []) q := by
  obtain ⟨config, hparse, params⟩ := document.paramAt_parseString
  exact ⟨config, hparse, fun q => params q.1 q.2⟩

/-- A document is parsed and insertions are made: a path is answered with the last value that the
document sets there, or else with the first one that is inserted there, or else with the default. -/
theorem Document.get_inserted (document : Document) (insertions : List Insertion)
    (create : ∀ insertion ∈ insertions, insertion.bCreate = true) :
    ∃ config, Config.parseString document.text = .ok config ∧
      ∀ (names : List DomainName) (key sDefault : Bytes), 93 ∉ key →
        let q := (names.map DomainName.text, key)
        (insertions.foldl Insertion.step config).get (paramPath names key) sDefault =
          .ok (((lastValue (document.settings []) q).or
            (firstValue (insertions.flatMap Insertion.settings) q)).getD sDefault) := by
  obtain ⟨config, hparse, parsed⟩ := document.parses
  refine ⟨config, hparse, fun names key sDefault clean => ?_⟩
  intro q
  have inserted := ConfigView.run_value_of_create config.view create q
  rw [← view_run, parsed] at inserted
  rw [Config.get_of_path (parseDomainName_paramPath names clean), ← inserted]
  rfl

theorem Document.get_inserted_example :
    let insertions : List Insertion :=
      [.params (str "/") [(str "a", str "2"), (str "b", str "3")] true,
       .params (str "/d") [(str "k", str "v")] true, .params (str "/d") [(str "k", str "w")] true]
    ∃ config, Config.parseString (str "a=1") = .ok config ∧
      let after := insertions.foldl Insertion.step config
      after.get (str "/[a]") [] = .ok (str "1") ∧ after.get (str "/[b]") [] = .ok (str "3") ∧
        after.get (str "/d/[k]") [] = .ok (str "v") := by
  let pad : Padding := ⟨[], by simp, by simp⟩
  let param : ParamLine := ⟨pad, str "a", pad, str "1", by decide, by decide, by decide, by decide,
    by decide, by decide⟩
  let d : DomainName := ⟨str "d", by decide, by decide, by decide, by decide⟩
  intro insertions
  obtain ⟨config, hparse, answers⟩ :=
    (Document.param param .done).get_inserted insertions (by simp [insertions, Insertion.bCreate])
  exact ⟨config, hparse, answers [] (str "a") [] (by decide), answers [] (str "b") [] (by decide),
    answers [d] (str "k") [] (by decide)⟩

end ABDyeing
