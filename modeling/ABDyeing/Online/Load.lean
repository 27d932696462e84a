import ABDyeing.Online.Policy
import ABDyeing.Plugin

/-! `DyeingOnlinePlugin::loadConfig`, `loadInternal` and `ParseProductPolicy`.  A text is loaded by
assigning its entries to the product map of its business type one after the other, so the last
entry of a product counts. -/

namespace ABDyeing

open Lib

/-- A segment `conf_id,start_id,end_id`, or nothing where the number of fields is wrong. -/
def parseConfIdInfo (field : Bytes) : Option ConfIdInfo :=
  match sepstr field (str ",") true with
  | [confId, startId, endId] => some ⟨confId, (atoi startId).toUInt32, (atoi endId).toUInt32⟩
  | _ => none

/-- An entry `product_id|prefix:seed:segment:...`, or nothing where the number of fields is wrong.
A segment that is dropped does not drop its entry. -/
def parseEntry (product : Bytes) : Option (Bytes × Policy) :=
  match sepstr product (str "|") true with
  | [productId, policy] =>
    match sepstr policy (str ":") true with
    | idPrefix :: seed :: field :: fields =>
      some (productId,
        ⟨(atoi seed).toUInt32, idPrefix, (field :: fields).filterMap parseConfIdInfo⟩)
    | _ => none
  | _ => none

namespace DyeingOnlinePlugin

/-- The loop of `ParseProductPolicy` over the products. -/
def parseProducts (productPolicyMap : UnorderedMap Bytes Policy) :
    List Bytes → UnorderedMap Bytes Policy
  | [] => productPolicyMap
  | product :: products =>
    match parseEntry product with
    | none => parseProducts productPolicyMap products
    | some (productId, policy) => parseProducts (productPolicyMap.insert productId policy) products

def parseProductPolicy (plugin : DyeingOnlinePlugin) (businessType productConf : Bytes) :
    Bool × DyeingOnlinePlugin :=
  let productPolicyMap := (plugin.policyMap.lookup businessType).getD ∅
  let products := sepstr productConf (str ";") true
  (true, { plugin with
    policyMap := plugin.policyMap.insert businessType (parseProducts productPolicyMap products) })

/-- `loadInternal` after it has read the node. -/
def loadText (plugin : DyeingOnlinePlugin) (businessType productConf : Bytes) :
    Bool × DyeingOnlinePlugin :=
  if productConf.isEmpty then (false, plugin)
  else
    match plugin.parseProductPolicy businessType productConf with
    | (false, plugin) => (false, plugin)
    | (true, plugin) => (true, plugin)

def loadInternal (store : Store) (plugin : DyeingOnlinePlugin) (businessType : Bytes) :
    Load (Bool × DyeingOnlinePlugin) := do
  let productConf ← qconfGet store (fullPath plugin.pathPrefix businessType) []
  return plugin.loadText businessType productConf

def loadConfig (store : Store) (plugin : DyeingOnlinePlugin) (businessTypes : List Bytes) :
    Load (Bool × DyeingOnlinePlugin) :=
  loadConfigWith (loadInternal store) store plugin.pathPrefix plugin businessTypes

end DyeingOnlinePlugin

def parseEntries (productConf : Bytes) : List (Bytes × Policy) :=
  (sepstr productConf (str ";") true).filterMap parseEntry

def DyeingOnlinePlugin.policies (plugin : DyeingOnlinePlugin) (businessType : Bytes) :
    UnorderedMap Bytes Policy :=
  (plugin.policyMap.lookup businessType).getD ∅

@[simp] theorem parseEntries_empty : parseEntries [] = [] := rfl

theorem parseEntry_eq_some {product productId : Bytes} {policy : Policy} :
    parseEntry product = some (productId, policy) ↔
      ∃ text idPrefix seed field fields, sepstr product (str "|") true = [productId, text] ∧
        sepstr text (str ":") true = idPrefix :: seed :: field :: fields ∧
        policy = ⟨(atoi seed).toUInt32, idPrefix,
          (field :: fields).filterMap parseConfIdInfo⟩ := by
  unfold parseEntry
  split
  · rename_i productId' text hproduct
    split
    · rename_i idPrefix seed field fields htext
      simp only [Option.some.injEq, Prod.mk.injEq, hproduct, List.cons.injEq, and_true]
      constructor
      · intro ⟨hid, hpolicy⟩
        exact ⟨text, idPrefix, seed, field, fields, ⟨hid, rfl⟩, htext, hpolicy.symm⟩
      · intro ⟨text', idPrefix', seed', field', fields', ⟨hid, htext'⟩, hfields, hpolicy⟩
        subst htext'
        rw [htext] at hfields
        simp only [List.cons.injEq] at hfields
        obtain ⟨rfl, rfl, rfl, rfl⟩ := hfields
        exact ⟨hid, hpolicy.symm⟩
    · rename_i hfew
      simp only [reduceCtorEq, hproduct, List.cons.injEq, and_true, false_iff]
      intro ⟨text', idPrefix, seed, field, fields, ⟨_, htext'⟩, hfields, _⟩
      subst htext'
      exact hfew _ _ _ _ hfields
  · rename_i hparts
    simp only [reduceCtorEq, false_iff]
    intro ⟨text, _, _, _, _, hproduct, _⟩
    exact hparts _ _ hproduct

theorem parseProducts_eq (products : List Bytes) (m : UnorderedMap Bytes Policy) :
    DyeingOnlinePlugin.parseProducts m products = assignAll (products.filterMap parseEntry) m := by
  induction products generalizing m with
  | nil => rfl
  | cons product products ih =>
    rw [DyeingOnlinePlugin.parseProducts]
    cases hentry : parseEntry product with
    | none => rw [List.filterMap_cons_none hentry, ← ih]
    | some entry =>
      rw [List.filterMap_cons_some hentry, assignAll_cons, ← ih]

namespace DyeingOnlinePlugin

@[simp] theorem new_pathPrefix (pathPrefix : Bytes) : (new pathPrefix).pathPrefix = pathPrefix :=
  rfl

@[simp] theorem new_policies (pathPrefix businessType : Bytes) :
    (new pathPrefix).policies businessType = ∅ := rfl

theorem loadText_of_ne_nil {plugin : DyeingOnlinePlugin} {businessType productConf : Bytes}
    (h : productConf ≠ []) :
    plugin.loadText businessType productConf = (true, { plugin with
      policyMap := plugin.policyMap.insert businessType
        (assignAll (parseEntries productConf) (plugin.policies businessType)) }) := by
  rw [loadText, if_neg (by simpa using h), parseProductPolicy, parseProducts_eq]
  rfl

@[simp] theorem loadText_empty (plugin : DyeingOnlinePlugin) (businessType : Bytes) :
    plugin.loadText businessType [] = (false, plugin) := rfl

theorem loadText_fst (plugin : DyeingOnlinePlugin) (businessType productConf : Bytes) :
    (plugin.loadText businessType productConf).1 = !productConf.isEmpty := by
  by_cases h : productConf = []
  · simp [h]
  · simp [loadText_of_ne_nil h, h]

@[simp] theorem loadText_pathPrefix (plugin : DyeingOnlinePlugin)
    (businessType productConf : Bytes) :
    (plugin.loadText businessType productConf).2.pathPrefix = plugin.pathPrefix := by
  by_cases h : productConf = []
  · simp [h]
  · rw [loadText_of_ne_nil h]

/-- Loading a text that is not empty assigns its entries to its own business type, and leaves the
others alone. -/
theorem lookup_loadText (plugin : DyeingOnlinePlugin) (businessType productConf t : Bytes) :
    (plugin.loadText businessType productConf).2.policyMap.lookup t =
      if t = businessType ∧ productConf ≠ [] then
        some (assignAll (parseEntries productConf) (plugin.policies t))
      else plugin.policyMap.lookup t := by
  by_cases h : productConf = []
  · simp [h]
  · rw [loadText_of_ne_nil h]
    by_cases ht : t = businessType
    · subst ht
      simp [h]
    · simp [ht]

theorem policies_loadText (plugin : DyeingOnlinePlugin) (businessType productConf t : Bytes) :
    (plugin.loadText businessType productConf).2.policies t =
      if t = businessType then assignAll (parseEntries productConf) (plugin.policies t)
      else plugin.policies t := by
  rw [policies, lookup_loadText]
  by_cases ht : t = businessType
  · by_cases h : productConf = []
    · simp [h, policies]
    · simp [ht, h]
  · simp [ht, policies]

theorem loadInternal_of_reads {store : Store} {node : Bytes → Bytes} {n : Nat}
    (reads : store.Reads node n) (plugin : DyeingOnlinePlugin) (businessType : Bytes) :
    loadInternal store plugin businessType n =
      .ok (plugin.loadText businessType (node (fullPath plugin.pathPrefix businessType)),
        n + 1) := by
  simp only [loadInternal, bind, StateT.bind, reads _, Except.bind]
  rfl

theorem loadInternal_fails {store : Store} {node : Bytes → Bytes} {k : Nat}
    (failsAt : store.FailsAt node k) (plugin : DyeingOnlinePlugin) (businessType : Bytes) :
    ∃ e, loadInternal store plugin businessType k = .error (.exception e) := by
  obtain ⟨e, he⟩ := failsAt.throws (fullPath plugin.pathPrefix businessType)
  exact ⟨e, by simp only [loadInternal, bind, StateT.bind, he, Except.bind]⟩

end DyeingOnlinePlugin

end ABDyeing
