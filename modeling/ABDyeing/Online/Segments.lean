import ABDyeing.Lib.Run
import ABDyeing.Online.Load

/-! Which texts leave a policy without segments in the plugin.  Such a policy is what the fallback
of `get` cannot answer, and it arises where an entry with enough fields has no segment of three
fields and no later entry replaces it. -/

namespace ABDyeing

open Lib

/-- An entry with two fields, of which the second has at least three, is stored under the first. -/
def StoredUnder (productId product : Bytes) : Prop :=
  ∃ policy, sepstr product (str "|") true = [productId, policy] ∧
    3 ≤ (sepstr policy (str ":") true).length

def HasSegment (product : Bytes) : Prop :=
  ∃ productId policy, sepstr product (str "|") true = [productId, policy] ∧
    ∃ field ∈ (sepstr policy (str ":") true).drop 2, (sepstr field (str ",") true).length = 3

/-- Each entry of the text that is stored has a segment, or a later entry is stored in its place. -/
def Complete (productConf : Bytes) : Prop :=
  ∀ before product after productId,
    sepstr productConf (str ";") true = before ++ product :: after →
    StoredUnder productId product →
    HasSegment product ∨ ∃ later ∈ after, StoredUnder productId later

theorem parseConfIdInfo_isSome {field : Bytes} :
    (parseConfIdInfo field).isSome ↔ (sepstr field (str ",") true).length = 3 := by
  unfold parseConfIdInfo
  split
  · rename_i confId startId endId h
    simp [h]
  · rename_i h
    simp only [Option.isSome_none, Bool.false_eq_true, false_iff]
    intro hlength
    obtain ⟨confId, startId, endId, hfields⟩ := List.length_eq_three.mp hlength
    exact h confId startId endId hfields

theorem filterMap_parseConfIdInfo_ne_nil {fields : List Bytes} :
    fields.filterMap parseConfIdInfo ≠ [] ↔
      ∃ field ∈ fields, (sepstr field (str ",") true).length = 3 := by
  simp only [ne_eq, List.filterMap_eq_nil_iff, not_forall, ← parseConfIdInfo_isSome,
    Option.isSome_iff_ne_none, exists_prop]

theorem parseEntry_iff_storedUnder {product productId : Bytes} :
    (∃ policy, parseEntry product = some (productId, policy)) ↔ StoredUnder productId product := by
  simp only [parseEntry_eq_some]
  constructor
  · intro ⟨_, text, idPrefix, seed, field, fields, hproduct, htext, _⟩
    exact ⟨text, hproduct, by simp [htext]⟩
  · intro ⟨text, hproduct, hlength⟩
    match htext : sepstr text (str ":") true, hlength with
    | idPrefix :: seed :: field :: fields, _ =>
      exact ⟨_, text, idPrefix, seed, field, fields, hproduct, htext, rfl⟩

theorem parseEntry_segments {product productId : Bytes} {policy : Policy}
    (h : parseEntry product = some (productId, policy)) :
    policy.confIdInfos ≠ [] ↔ HasSegment product := by
  obtain ⟨text, idPrefix, seed, field, fields, hproduct, htext, rfl⟩ := parseEntry_eq_some.mp h
  rw [filterMap_parseConfIdInfo_ne_nil, HasSegment]
  constructor
  · intro hsegment
    exact ⟨productId, text, hproduct, by simpa [htext] using hsegment⟩
  · intro ⟨productId', text', hproduct', hsegment⟩
    rw [hproduct] at hproduct'
    simp only [List.cons.injEq, and_true] at hproduct'
    obtain ⟨rfl, rfl⟩ := hproduct'
    simpa [htext] using hsegment

/-- A complete text is one of which every product keeps a policy with segments. -/
theorem complete_iff {productConf : Bytes} : Complete productConf ↔
    ∀ productId policy, lastValue (parseEntries productConf) productId = some policy →
      policy.confIdInfos ≠ [] := by
  constructor
  · intro complete productId policy hlast
    obtain ⟨before, after, hentries, hother⟩ := lastValue_eq_some.mp hlast
    obtain ⟨_, rest, hparts, _, hrest⟩ := List.filterMap_eq_append_iff.mp hentries
    obtain ⟨skipped, product, later, rfl, _, hentry, rfl⟩ := List.filterMap_eq_cons_iff.mp hrest
    rw [parseEntry_segments hentry]
    refine (complete _ product later productId (by rw [hparts, List.append_assoc])
      (parseEntry_iff_storedUnder.mp ⟨policy, hentry⟩)).resolve_right ?_
    intro ⟨p, hp, hstored⟩
    obtain ⟨policy', hentry'⟩ := parseEntry_iff_storedUnder.mpr hstored
    exact hother (List.mem_map.mpr ⟨_, List.mem_filterMap.mpr ⟨p, hp, hentry'⟩, rfl⟩)
  · intro segments before product after productId hparts hstored
    obtain ⟨policy, hentry⟩ := parseEntry_iff_storedUnder.mpr hstored
    by_contra hneither
    obtain ⟨hnone, hlast⟩ := not_or.mp hneither
    refine hnone ((parseEntry_segments hentry).mp (segments productId policy ?_))
    refine lastValue_eq_some.mpr ⟨before.filterMap parseEntry, after.filterMap parseEntry, ?_, ?_⟩
    · rw [parseEntries, hparts, List.filterMap_append, List.filterMap_cons_some hentry]
    · intro hmem
      obtain ⟨⟨_, policy'⟩, he, rfl⟩ := List.mem_map.mp hmem
      obtain ⟨p, hp, hentry'⟩ := List.mem_filterMap.mp he
      exact hlast ⟨p, hp, parseEntry_iff_storedUnder.mp ⟨policy', hentry'⟩⟩

namespace DyeingOnlinePlugin

def Segmented (plugin : DyeingOnlinePlugin) : Prop :=
  ∀ businessType productPolicyMap productId policy,
    plugin.policyMap.lookup businessType = some productPolicyMap →
    productPolicyMap.lookup productId = some policy → policy.confIdInfos ≠ []

def Defined (plugin : DyeingOnlinePlugin) : Prop :=
  ∀ city uid app appVer appLan businessType,
    plugin.get city uid app appVer appLan businessType ≠ .error .undefined

theorem segmented_iff_policies {plugin : DyeingOnlinePlugin} : plugin.Segmented ↔
    ∀ businessType productId policy, (plugin.policies businessType).lookup productId = some policy →
      policy.confIdInfos ≠ [] := by
  constructor
  · intro h businessType productId policy hpolicy
    unfold policies at hpolicy
    cases hmap : plugin.policyMap.lookup businessType with
    | none => simp [hmap] at hpolicy
    | some m => exact h businessType m productId policy hmap (by simpa [hmap] using hpolicy)
  · intro h businessType m productId policy hmap hpolicy
    exact h businessType productId policy (by simpa [policies, hmap] using hpolicy)

theorem selectPolicy_app {plugin : DyeingOnlinePlugin} {businessType productId : Bytes}
    {m : UnorderedMap Bytes Policy} {policy : Policy}
    (hmap : plugin.policyMap.lookup businessType = some m)
    (hpolicy : m.lookup productId = some policy) :
    plugin.selectPolicy productId [] [] businessType = some policy := by
  have hmem : productId ∈ m := Finmap.mem_of_lookup_eq_some hpolicy
  have product : DyeingOnlinePlugin.productId m productId [] [] = productId := by
    simp [DyeingOnlinePlugin.productId, hmem]
  simp only [selectPolicy, hmap]
  rw [product, hpolicy]

theorem selectPolicy_mem {plugin : DyeingOnlinePlugin} {app appVer appLan businessType : Bytes}
    {policy : Policy} (h : plugin.selectPolicy app appVer appLan businessType = some policy) :
    ∃ m productId, plugin.policyMap.lookup businessType = some m ∧
      m.lookup productId = some policy := by
  unfold selectPolicy at h
  split at h
  · cases h
  · rename_i m hmap
    exact ⟨m, _, hmap, h⟩

theorem get_eq_undefined_iff {city : CityHash} {plugin : DyeingOnlinePlugin}
    {uid app appVer appLan businessType : Bytes} :
    plugin.get city uid app appVer appLan businessType = .error .undefined ↔
      ∃ policy, plugin.selectPolicy app appVer appLan businessType = some policy ∧
        policy.confIdInfos = [] := by
  unfold get
  split
  · rename_i hselect
    simp [hselect, pure, Except.pure]
  · rename_i policy hselect
    simp only [hselect, Option.some.injEq, exists_eq_left']
    have hconf := policy.confIdFor_eq_undefined (bucket city uid policy)
    rw [← hconf]
    cases policy.confIdFor (bucket city uid policy) with
    | error e => simp [bind, Except.bind]
    | ok c => simp [bind, Except.bind, pure, Except.pure]

theorem defined_iff_segmented {plugin : DyeingOnlinePlugin} :
    plugin.Defined ↔ plugin.Segmented := by
  constructor
  · intro defined businessType m productId policy hmap hpolicy hnil
    exact defined (fun _ _ => 0) [] productId [] [] businessType
      (get_eq_undefined_iff.mpr ⟨policy, selectPolicy_app hmap hpolicy, hnil⟩)
  · intro segmented city uid app appVer appLan businessType hget
    obtain ⟨policy, hselect, hnil⟩ := get_eq_undefined_iff.mp hget
    obtain ⟨m, productId, hmap, hpolicy⟩ := selectPolicy_mem hselect
    exact segmented businessType m productId policy hmap hpolicy hnil

/-- A load keeps every policy segmented exactly when its text is complete. -/
theorem segmented_loadText_iff {plugin : DyeingOnlinePlugin} (segmented : plugin.Segmented)
    (businessType productConf : Bytes) :
    (plugin.loadText businessType productConf).2.Segmented ↔ Complete productConf := by
  rw [segmented_iff_policies] at segmented ⊢
  rw [complete_iff]
  constructor
  · intro h productId policy hlast
    apply h businessType productId policy
    rw [policies_loadText, if_pos rfl, lookup_assignAll, hlast]
    rfl
  · intro h t productId policy hpolicy
    rw [policies_loadText] at hpolicy
    split at hpolicy
    · rw [lookup_assignAll, Option.or_eq_some_iff] at hpolicy
      rcases hpolicy with hlast | ⟨-, hold⟩
      · exact h productId policy hlast
      · exact segmented t productId policy hold
    · exact segmented t productId policy hpolicy

theorem new_segmented (pathPrefix : Bytes) : (new pathPrefix).Segmented := by
  intro businessType m productId policy hmap
  simp [new] at hmap

/-- One step of a sequence of loads: a business type and the text of its node. -/
def load (plugin : DyeingOnlinePlugin) (text : Bytes × Bytes) : DyeingOnlinePlugin :=
  (plugin.loadText text.1 text.2).2

/-- After every load of a sequence each policy has a segment and `get` is defined for every request,
if and only if each text of the sequence is complete. -/
theorem loads_defined_iff (pathPrefix : Bytes) (texts : List (Bytes × Bytes)) :
    Always load (fun plugin => plugin.Segmented ∧ plugin.Defined) (new pathPrefix) texts ↔
      ∀ text ∈ texts, Complete text.2 := by
  have same : (fun plugin : DyeingOnlinePlugin => plugin.Segmented ∧ plugin.Defined) =
      Segmented := by
    funext plugin
    rw [defined_iff_segmented, and_self]
  have keep (plugin : DyeingOnlinePlugin) (text : Bytes × Bytes) (h : plugin.Segmented) :
      (plugin.load text).Segmented ↔ Complete text.2 := segmented_loadText_iff h text.1 text.2
  rw [same, always_iff_of_exact keep (new_segmented pathPrefix), along_iff_forall]

/-- A text whose only segment lacks its end makes `get` read the first of no segments. -/
theorem load_undefined_example :
    (load (new (str "/p")) (str "t", str "emui|:0:62,1")).get (fun _ _ => 0) (str "u")
      (str "emui") [] [] (str "t") = .error .undefined := by
  rfl

end DyeingOnlinePlugin

end ABDyeing
