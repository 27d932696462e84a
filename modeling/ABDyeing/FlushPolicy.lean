import Mathlib.Data.List.Induction
import ABDyeing.Handler

/-! What `flushPolicy` does to the two plugins.  The loop over the types keeps the verdict on the
last one only, so a type of the online plugin that fails before it is dropped silently. -/

namespace ABDyeing

open Lib

def parsedPolicies (productConf : Bytes) : UnorderedMap Bytes Policy :=
  assignAll (parseEntries productConf) ∅

namespace DyeingOnlinePlugin

variable (node : Bytes → Bytes)

def loadNode (plugin : DyeingOnlinePlugin) (businessType : Bytes) : Bool × DyeingOnlinePlugin :=
  plugin.loadText businessType (node (fullPath plugin.pathPrefix businessType))

def loadNodes (types : List Bytes) (rtval : Bool) (plugin : DyeingOnlinePlugin) :
    Bool × DyeingOnlinePlugin :=
  types.foldl (fun r t => r.2.loadNode node t) (rtval, plugin)

@[simp] theorem loadNodes_pathPrefix (types : List Bytes) (rtval : Bool)
    (plugin : DyeingOnlinePlugin) :
    (loadNodes node types rtval plugin).2.pathPrefix = plugin.pathPrefix := by
  induction types generalizing rtval plugin with
  | nil => rfl
  | cons s types ih => exact (ih _ _).trans (loadText_pathPrefix plugin s _)

theorem loadNodes_fst (types : List Bytes) (rtval : Bool) (plugin : DyeingOnlinePlugin) :
    (loadNodes node types rtval plugin).1 =
      (types.getLast?.map fun t => !(node (fullPath plugin.pathPrefix t)).isEmpty).getD rtval := by
  induction types using List.reverseRecOn with
  | nil => rfl
  | append_singleton types t _ =>
    rw [List.getLast?_concat, loadNodes, List.foldl_append]
    change ((loadNodes node types rtval plugin).2.loadNode node t).1 = _
    rw [loadNode, loadText_fst, loadNodes_pathPrefix]
    rfl

theorem lookup_loadNodes (types : List Bytes) (rtval : Bool) (plugin : DyeingOnlinePlugin)
    (t : Bytes) :
    (loadNodes node types rtval plugin).2.policyMap.lookup t =
      if t ∈ types ∧ node (fullPath plugin.pathPrefix t) ≠ [] then
        some (assignAll (parseEntries (node (fullPath plugin.pathPrefix t))) (plugin.policies t))
      else plugin.policyMap.lookup t := by
  induction types generalizing rtval plugin with
  | nil => simp [loadNodes]
  | cons s types ih =>
    change (loadNodes node types _ (plugin.loadNode node s).2).2.policyMap.lookup t = _
    rw [ih, loadNode, loadText_pathPrefix, policies_loadText, lookup_loadText]
    by_cases hs : t = s
    · subst hs
      by_cases htext : node (fullPath plugin.pathPrefix t) = []
      · simp [htext]
      · simp [htext, assignAll_idem]
    · simp [hs]

theorem loadConfig_before {node : Bytes → Bytes} {store : Store} {k : Nat}
    (reads : ∀ i < k, store.Reads node i) (pathPrefix : Bytes) (businessTypes : List Bytes)
    {n : Nat}
    (h : n + 1 + (effectiveTypes (node (pathPrefix ++ str "/value")) businessTypes).length ≤ k) :
    let types := effectiveTypes (node (pathPrefix ++ str "/value")) businessTypes
    (new pathPrefix).loadConfig store businessTypes n =
      .ok (loadNodes node types false (new pathPrefix), n + 1 + types.length) :=
  loadConfigWith_before (fun i hi => loadInternal_of_reads (reads i hi)) reads pathPrefix
    (new pathPrefix) businessTypes h

theorem loadConfig_fails {node : Bytes → Bytes} {store : Store} {k : Nat}
    (failsAt : store.FailsAt node k) (pathPrefix : Bytes) (businessTypes : List Bytes) {n : Nat}
    (hle : n ≤ k)
    (hlt : k <
      n + 1 + (effectiveTypes (node (pathPrefix ++ str "/value")) businessTypes).length) :
    ∃ e, (new pathPrefix).loadConfig store businessTypes n = .error (.exception e) :=
  loadConfigWith_fails (fun i hi => loadInternal_of_reads (failsAt.before i hi)) failsAt
    (loadInternal_fails failsAt) pathPrefix (new pathPrefix) businessTypes hle hlt

end DyeingOnlinePlugin

namespace ABDyeingHandler

variable (node : Bytes → Bytes) (handler : ABDyeingHandler)

def whiteTypes : List Bytes :=
  effectiveTypes (node (handler.whitePrefix ++ str "/value")) handler.types

/-- The white list that the nodes of its types make up. -/
def loadedWhiteList : DyeingWhiteListPlugin :=
  (DyeingWhiteListPlugin.loadNodes node (handler.whiteTypes node) false
    (.new handler.whitePrefix)).2

/-- Without types the load fails; else it succeeds, whatever the nodes hold. -/
def nextWhiteList : Option DyeingWhiteListPlugin :=
  if handler.whiteTypes node = [] then handler.whiteList else some (handler.loadedWhiteList node)

def onlineTypes : List Bytes :=
  effectiveTypes (node (handler.onlinePrefix ++ str "/value")) handler.types

def onlineText (t : Bytes) : Bytes := node (fullPath handler.onlinePrefix t)

/-- The last type alone decides whether the plugin is replaced. -/
def nextOnlinePlugin : Option DyeingOnlinePlugin :=
  if ((handler.onlineTypes node).getLast?.map
      fun t => !(handler.onlineText node t).isEmpty).getD false then
    some (DyeingOnlinePlugin.loadNodes node (handler.onlineTypes node) false
      (.new handler.onlinePrefix)).2
  else handler.onlinePlugin

/-- The online plugin `after` is what it should be after a flush: where every type loads, a plugin
with the policies of exactly these types, and otherwise the one from before. -/
def OnlineFollows (after : Option DyeingOnlinePlugin) : Prop :=
  if ∀ t ∈ handler.onlineTypes node, handler.onlineText node t ≠ [] then
    ∃ plugin, after = some plugin ∧ ∀ t, plugin.policyMap.lookup t =
      if t ∈ handler.onlineTypes node then some (parsedPolicies (handler.onlineText node t))
      else none
  else after = handler.onlinePlugin

variable {node handler}

theorem flushWhiteList_before {store : Store} {k : Nat} (reads : ∀ i < k, store.Reads node i)
    (handler : ABDyeingHandler) {n : Nat} (h : n + 1 + (handler.whiteTypes node).length ≤ k) :
    handler.flushWhiteList store n = ({ handler with whiteList := handler.nextWhiteList node },
      .ok (n + 1 + (handler.whiteTypes node).length)) := by
  have hload := DyeingWhiteListPlugin.loadConfig_before reads handler.whitePrefix handler.types h
  rw [flushWhiteList, hload, publishIf_ok]
  refine Prod.ext ?_ rfl
  unfold nextWhiteList
  by_cases htypes : handler.whiteTypes node = []
  · have hnone : effectiveTypes (node (handler.whitePrefix ++ str "/value")) handler.types = [] :=
      htypes
    rw [if_pos htypes, hnone]
    rfl
  · rw [if_neg htypes]
    exact if_pos (DyeingWhiteListPlugin.loadNodes_fst node htypes false _)

theorem flushWhiteList_of_holds {store : Store} (holds : store.Holds node)
    (handler : ABDyeingHandler) (n : Nat) :
    handler.flushWhiteList store n = ({ handler with whiteList := handler.nextWhiteList node },
      .ok (n + 1 + (handler.whiteTypes node).length)) :=
  flushWhiteList_before (fun i _ => holds i) handler le_rfl

theorem get_nextWhiteList (hnonempty : handler.whiteTypes node ≠ []) (uid type : Bytes) :
    DyeingLogic.handleWhiteList (handler.nextWhiteList node) uid type =
      if type ∈ handler.whiteTypes node then
        lastValue (DyeingWhiteListPlugin.parsePairs (node (fullPath handler.whitePrefix type))) uid
      else none := by
  rw [nextWhiteList, if_neg hnonempty]
  change (handler.loadedWhiteList node).get uid type = _
  by_cases htype : type ∈ handler.whiteTypes node
  · rw [if_pos htype]
    exact DyeingWhiteListPlugin.get_loadNodes htype false _ uid
  · rw [if_neg htype, DyeingWhiteListPlugin.get_eq, loadedWhiteList,
      DyeingWhiteListPlugin.confs_loadNodes, if_neg htype]
    rfl

theorem flushPolicy_of_holds {store : Store} (holds : store.Holds node) (handler : ABDyeingHandler)
    (n : Nat) :
    (handler.flushPolicy store n).1 = { handler with
      whiteList := handler.nextWhiteList node, onlinePlugin := handler.nextOnlinePlugin node } := by
  have honline := DyeingOnlinePlugin.loadConfig_before (fun i _ => holds i) handler.onlinePrefix
    handler.types (le_refl (n + 1 + (handler.whiteTypes node).length + 1 +
      (handler.onlineTypes node).length))
  have hverdict := DyeingOnlinePlugin.loadNodes_fst node (handler.onlineTypes node) false
    (.new handler.onlinePrefix)
  rw [flushPolicy, flushWhiteList_of_holds holds, Flushed.andThen_ok, flushOnline, honline,
    publishIf_ok]
  change (if (DyeingOnlinePlugin.loadNodes node (handler.onlineTypes node) false
    (.new handler.onlinePrefix)).1 = true then _ else _ : ABDyeingHandler) = _
  rw [hverdict, DyeingOnlinePlugin.new_pathPrefix]
  unfold nextOnlinePlugin onlineText
  split <;> rfl

/-- Replacing a value under a verdict is right for every old value exactly when the verdict is. -/
theorem replaced_iff {α : Type} {verdict : Bool} {loads : Prop} [Decidable loads] {new : α}
    {right : α → Prop} (hnew : loads → right new) :
    (∀ old : Option α,
      if loads then ∃ plugin, (if verdict then some new else old) = some plugin ∧ right plugin
      else (if verdict then some new else old) = old) ↔
      (verdict = true ↔ loads) := by
  by_cases hloads : loads
  · simp only [if_pos hloads, iff_true_right hloads]
    cases verdict with
    | false =>
      refine iff_of_false (fun h => ?_) (by simp)
      obtain ⟨plugin, hplugin, -⟩ := h none
      cases hplugin
    | true => exact iff_of_true (fun _ => ⟨new, rfl, hnew hloads⟩) rfl
  · simp only [if_neg hloads, iff_false_right hloads]
    cases verdict with
    | false => exact iff_of_true (fun _ => rfl) (by simp)
    | true =>
      refine iff_of_false (fun h => ?_) (by simp)
      cases h none

/-- The verdict on the last text agrees with the verdict on all where there are texts, and all are
good where the last one is. -/
theorem last_verdict_iff (text : Bytes → Bytes) (types : List Bytes) :
    ((types.getLast?.map fun t => !(text t).isEmpty).getD false = true ↔
        ∀ t ∈ types, text t ≠ []) ↔
      types ≠ [] ∧ ((∀ last ∈ types.getLast?, text last ≠ []) → ∀ t ∈ types, text t ≠ []) := by
  rcases List.eq_nil_or_concat types with rfl | ⟨before, last, rfl⟩
  · simp
  · rw [List.concat_eq_append]
    have hmem : last ∈ before ++ [last] := by simp
    simp only [List.getLast?_concat, Option.map_some, Option.getD_some, Bool.not_eq_true',
      List.isEmpty_eq_false_iff, Option.mem_some_iff, forall_eq']
    constructor
    · intro h
      exact ⟨List.ne_nil_of_mem hmem, h.mp⟩
    · intro h
      exact ⟨h.2, fun all => all last hmem⟩

/-- For every plugin published before, the online plugin is as it should be after a flush if and
only if there are types, and all of them load where the last one does. -/
theorem flushPolicy_onlineFollows_iff {store : Store} (holds : store.Holds node)
    (handler : ABDyeingHandler) (n : Nat) :
    (∀ old, ({ handler with onlinePlugin := old } : ABDyeingHandler).OnlineFollows node
      (flushPolicy store { handler with onlinePlugin := old } n).1.onlinePlugin) ↔
    handler.onlineTypes node ≠ [] ∧
      ((∀ last ∈ (handler.onlineTypes node).getLast?, handler.onlineText node last ≠ []) →
        ∀ t ∈ handler.onlineTypes node, handler.onlineText node t ≠ []) := by
  have result (old : Option DyeingOnlinePlugin) :
      (flushPolicy store { handler with onlinePlugin := old } n).1.onlinePlugin =
        if ((handler.onlineTypes node).getLast?.map
          fun t => !(handler.onlineText node t).isEmpty).getD false then
          some (DyeingOnlinePlugin.loadNodes node (handler.onlineTypes node) false
            (.new handler.onlinePrefix)).2
        else old := by
    rw [flushPolicy_of_holds holds]
    rfl
  have follows (old after : Option DyeingOnlinePlugin) :
      ({ handler with onlinePlugin := old } : ABDyeingHandler).OnlineFollows node after ↔
        if ∀ t ∈ handler.onlineTypes node, handler.onlineText node t ≠ [] then
          ∃ plugin, after = some plugin ∧ ∀ t, plugin.policyMap.lookup t =
            if t ∈ handler.onlineTypes node then
              some (parsedPolicies (handler.onlineText node t)) else none
        else after = old := Iff.rfl
  have loaded (hall : ∀ t ∈ handler.onlineTypes node, handler.onlineText node t ≠ [])
      (t : Bytes) :
      (DyeingOnlinePlugin.loadNodes node (handler.onlineTypes node) false
        (.new handler.onlinePrefix)).2.policyMap.lookup t =
        if t ∈ handler.onlineTypes node then some (parsedPolicies (handler.onlineText node t))
        else none := by
    rw [DyeingOnlinePlugin.lookup_loadNodes]
    by_cases ht : t ∈ handler.onlineTypes node
    · have htextNode : node (fullPath handler.onlinePrefix t) ≠ [] := hall t ht
      simp [ht, htextNode, parsedPolicies, onlineText]
    · simp [ht, DyeingOnlinePlugin.new]
  simp only [follows, result]
  exact (replaced_iff loaded).trans (last_verdict_iff _ _)

def typeNode (path : Bytes) : Bytes :=
  if path = str "/o/t/value" then str "emui|:0:62,1,1000" else []

theorem flushPolicy_onlineFollows_iff_example :
    (blank [str "t"]).OnlineFollows typeNode
      (flushPolicy (steady typeNode) (blank [str "t"]) 0).1.onlinePlugin :=
  (flushPolicy_onlineFollows_iff (steady_holds typeNode) (blank [str "t"]) 0).mpr
    (by decide) (blank [str "t"]).onlinePlugin

/-- The type `s` has no node, and the plugin is replaced by one without it. -/
theorem flushPolicy_drops_type :
    ¬(blank [str "s", str "t"]).OnlineFollows typeNode
      (flushPolicy (steady typeNode) (blank [str "s", str "t"]) 0).1.onlinePlugin := by
  have hfails : ¬∀ t ∈ (blank [str "s", str "t"]).onlineTypes typeNode,
      (blank [str "s", str "t"]).onlineText typeNode t ≠ [] := by decide
  unfold OnlineFollows
  rw [if_neg hfails]
  intro h
  have hlookup := congrArg
    (fun p => (p.bind fun plugin => plugin.policyMap.lookup (str "t")).isSome) h
  exact absurd hlookup (by decide)

end ABDyeingHandler

end ABDyeing
