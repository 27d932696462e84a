import ABDyeing.Lib.UnorderedMap
import ABDyeing.Plugin

/-! `DyeingWhiteListPlugin`: the config ids that single users are given by name. -/

namespace ABDyeing

open Lib

/-- `pathPrefix` is the field `_prefix`. -/
structure DyeingWhiteListPlugin where
  pathPrefix : Bytes
  map : UnorderedMap Bytes (UnorderedMap Bytes Bytes)

/-- An entry `uid=config_id`; empty fields do not count. -/
def parseKeyValue (key : Bytes) : Option (Bytes × Bytes) :=
  match sepstr key (str "=") false with
  | [k, v] => some (k, v)
  | _ => none

namespace DyeingWhiteListPlugin

def new (pathPrefix : Bytes) : DyeingWhiteListPlugin := ⟨pathPrefix, ∅⟩

/-- `get`; `none` is the result `false`, which leaves `config_id` alone. -/
def get (plugin : DyeingWhiteListPlugin) (uid businessType : Bytes) : Option Bytes :=
  match plugin.map.lookup businessType with
  | none => none
  | some lmap => lmap.lookup uid

def pushConf (plugin : DyeingWhiteListPlugin) (businessType k v : Bytes) : DyeingWhiteListPlugin :=
  let kvMap := (plugin.map.lookup businessType).getD ∅
  { plugin with map := plugin.map.insert businessType (kvMap.insert k v) }

/-- The loop of `loadInternal` over the entries. -/
def pushKeys (businessType : Bytes) : DyeingWhiteListPlugin → List Bytes → DyeingWhiteListPlugin
  | plugin, [] => plugin
  | plugin, key :: keys =>
    match parseKeyValue key with
    | none => pushKeys businessType plugin keys
    | some (k, v) => pushKeys businessType (plugin.pushConf businessType k v) keys

/-- `loadInternal` after it has read the node. -/
def loadText (plugin : DyeingWhiteListPlugin) (businessType qvalue : Bytes) :
    Bool × DyeingWhiteListPlugin :=
  (true, pushKeys businessType plugin (sepstr qvalue (str ";") false))

def loadInternal (store : Store) (plugin : DyeingWhiteListPlugin) (businessType : Bytes) :
    Load (Bool × DyeingWhiteListPlugin) := do
  let qvalue ← qconfGet store (fullPath plugin.pathPrefix businessType) []
  return plugin.loadText businessType qvalue

def loadConfig (store : Store) (plugin : DyeingWhiteListPlugin) (businessTypes : List Bytes) :
    Load (Bool × DyeingWhiteListPlugin) :=
  loadConfigWith (loadInternal store) store plugin.pathPrefix plugin businessTypes

/-- The entries of a text, with the uids and config ids that they assign. -/
def parsePairs (qvalue : Bytes) : List (Bytes × Bytes) :=
  (sepstr qvalue (str ";") false).filterMap parseKeyValue

def confs (plugin : DyeingWhiteListPlugin) (businessType : Bytes) : UnorderedMap Bytes Bytes :=
  (plugin.map.lookup businessType).getD ∅

theorem get_eq (plugin : DyeingWhiteListPlugin) (uid businessType : Bytes) :
    plugin.get uid businessType = (plugin.confs businessType).lookup uid := by
  unfold get confs
  cases plugin.map.lookup businessType <;> rfl

@[simp] theorem new_confs (pathPrefix businessType : Bytes) :
    (new pathPrefix).confs businessType = ∅ := rfl

theorem confs_pushConf (plugin : DyeingWhiteListPlugin) (businessType k v t : Bytes) :
    (plugin.pushConf businessType k v).confs t =
      if t = businessType then (plugin.confs t).insert k v else plugin.confs t := by
  by_cases ht : t = businessType
  · subst ht
    simp [confs, pushConf]
  · simp [confs, pushConf, ht]

theorem pushKeys_pathPrefix (businessType : Bytes) (plugin : DyeingWhiteListPlugin)
    (keys : List Bytes) :
    (pushKeys businessType plugin keys).pathPrefix = plugin.pathPrefix := by
  induction keys generalizing plugin with
  | nil => rfl
  | cons key keys ih =>
    rw [pushKeys]
    cases parseKeyValue key with
    | none => exact ih plugin
    | some entry => exact ih _

theorem confs_pushKeys (businessType : Bytes) (plugin : DyeingWhiteListPlugin) (keys : List Bytes)
    (t : Bytes) :
    (pushKeys businessType plugin keys).confs t =
      if t = businessType then assignAll (keys.filterMap parseKeyValue) (plugin.confs t)
      else plugin.confs t := by
  induction keys generalizing plugin with
  | nil => simp [pushKeys]
  | cons key keys ih =>
    rw [pushKeys]
    cases hkey : parseKeyValue key with
    | none => rw [List.filterMap_cons_none hkey]; exact ih plugin
    | some entry =>
      obtain ⟨k, v⟩ := entry
      rw [List.filterMap_cons_some hkey, assignAll_cons]
      refine (ih _).trans ?_
      rw [confs_pushConf]
      by_cases ht : t = businessType <;> simp [ht]

@[simp] theorem loadText_fst (plugin : DyeingWhiteListPlugin) (businessType qvalue : Bytes) :
    (plugin.loadText businessType qvalue).1 = true := rfl

@[simp] theorem loadText_pathPrefix (plugin : DyeingWhiteListPlugin)
    (businessType qvalue : Bytes) :
    (plugin.loadText businessType qvalue).2.pathPrefix = plugin.pathPrefix :=
  pushKeys_pathPrefix businessType plugin _

theorem confs_loadText (plugin : DyeingWhiteListPlugin) (businessType qvalue t : Bytes) :
    (plugin.loadText businessType qvalue).2.confs t =
      if t = businessType then assignAll (parsePairs qvalue) (plugin.confs t)
      else plugin.confs t :=
  confs_pushKeys businessType plugin _ t

theorem loadInternal_of_reads {store : Store} {node : Bytes → Bytes} {n : Nat}
    (reads : store.Reads node n) (plugin : DyeingWhiteListPlugin) (businessType : Bytes) :
    loadInternal store plugin businessType n =
      .ok (plugin.loadText businessType (node (fullPath plugin.pathPrefix businessType)),
        n + 1) := by
  simp only [loadInternal, bind, StateT.bind, reads _, Except.bind]
  rfl

theorem loadInternal_fails {store : Store} {node : Bytes → Bytes} {k : Nat}
    (failsAt : store.FailsAt node k) (plugin : DyeingWhiteListPlugin) (businessType : Bytes) :
    ∃ e, loadInternal store plugin businessType k = .error (.exception e) := by
  obtain ⟨e, he⟩ := failsAt.throws (fullPath plugin.pathPrefix businessType)
  exact ⟨e, by simp only [loadInternal, bind, StateT.bind, he, Except.bind]⟩

section Nodes

variable (node : Bytes → Bytes)

def loadNode (plugin : DyeingWhiteListPlugin) (businessType : Bytes) :
    Bool × DyeingWhiteListPlugin :=
  plugin.loadText businessType (node (fullPath plugin.pathPrefix businessType))

def loadNodes (types : List Bytes) (rtval : Bool) (plugin : DyeingWhiteListPlugin) :
    Bool × DyeingWhiteListPlugin :=
  types.foldl (fun r t => r.2.loadNode node t) (rtval, plugin)

theorem loadNodes_cons (t : Bytes) (types : List Bytes) (rtval : Bool)
    (plugin : DyeingWhiteListPlugin) :
    loadNodes node (t :: types) rtval plugin =
      loadNodes node types true (plugin.loadNode node t).2 := rfl

theorem loadNodes_fst {types : List Bytes} (h : types ≠ []) (rtval : Bool)
    (plugin : DyeingWhiteListPlugin) : (loadNodes node types rtval plugin).1 = true := by
  have verdict (types : List Bytes) (plugin : DyeingWhiteListPlugin) :
      (loadNodes node types true plugin).1 = true := by
    induction types generalizing plugin with
    | nil => rfl
    | cons t types ih => exact ih _
  obtain ⟨t, types, rfl⟩ := List.exists_cons_of_ne_nil h
  exact verdict types _

/-- Each type has the entries of its own node, no matter how often it is listed. -/
theorem confs_loadNodes (types : List Bytes) (rtval : Bool) (plugin : DyeingWhiteListPlugin)
    (t : Bytes) :
    (loadNodes node types rtval plugin).2.confs t =
      if t ∈ types then
        assignAll (parsePairs (node (fullPath plugin.pathPrefix t))) (plugin.confs t)
      else plugin.confs t := by
  induction types generalizing rtval plugin with
  | nil => simp [loadNodes]
  | cons s types ih =>
    rw [loadNodes_cons, ih, loadNode, loadText_pathPrefix, confs_loadText]
    by_cases hs : t = s
    · subst hs
      simp [assignAll_idem]
    · simp [hs]

variable {node}

theorem loadConfig_before {store : Store} {k : Nat} (reads : ∀ i < k, store.Reads node i)
    (pathPrefix : Bytes) (businessTypes : List Bytes) {n : Nat}
    (h : n + 1 + (effectiveTypes (node (pathPrefix ++ str "/value")) businessTypes).length ≤ k) :
    let types := effectiveTypes (node (pathPrefix ++ str "/value")) businessTypes
    (new pathPrefix).loadConfig store businessTypes n =
      .ok (loadNodes node types false (new pathPrefix), n + 1 + types.length) :=
  loadConfigWith_before (fun i hi => loadInternal_of_reads (reads i hi)) reads pathPrefix
    (new pathPrefix) businessTypes h

theorem loadConfig_fails {store : Store} {k : Nat} (failsAt : store.FailsAt node k)
    (pathPrefix : Bytes) (businessTypes : List Bytes) {n : Nat} (hle : n ≤ k)
    (hlt : k <
      n + 1 + (effectiveTypes (node (pathPrefix ++ str "/value")) businessTypes).length) :
    ∃ e, (new pathPrefix).loadConfig store businessTypes n = .error (.exception e) :=
  loadConfigWith_fails (fun i hi => loadInternal_of_reads (failsAt.before i hi)) failsAt
    (loadInternal_fails failsAt) pathPrefix (new pathPrefix) businessTypes hle hlt

/-- The last entry for the uid in the node of the type counts. -/
theorem get_loadNodes {types : List Bytes} {t : Bytes} (ht : t ∈ types) (rtval : Bool)
    (pathPrefix uid : Bytes) :
    (loadNodes node types rtval (new pathPrefix)).2.get uid t =
      lastValue (parsePairs (node (fullPath pathPrefix t))) uid := by
  rw [get_eq, confs_loadNodes, if_pos ht, lookup_assignAll, new_confs, Finmap.lookup_empty,
    Option.or_none]
  rfl

end Nodes

end DyeingWhiteListPlugin

end ABDyeing
