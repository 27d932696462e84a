import ABDyeing.Online.Policy

/-! The keys of the product policies.  A key is an app followed by a version, by a language or by
both, with nothing between them, so that the key of one app may also be spelled as another app with
another version: a request is confined to the policies of its own app exactly where no key can be
read in both ways. -/

namespace ABDyeing

open Lib

/-- The keys that a policy of an app may stand under. -/
inductive KeyOf (app : Bytes) : Bytes → Prop
  | app : KeyOf app app
  | appVer (appVer : Bytes) : KeyOf app (app ++ appVer)
  | appLan (appLan : Bytes) : KeyOf app (app ++ appLan)
  | appVerLan (appVer appLan : Bytes) : KeyOf app (app ++ appVer ++ appLan)

/-- A policy with the app that it is written for; the default policy has no owner. -/
structure WrittenPolicy where
  owner : Option Bytes
  key : Bytes
  policy : Policy

/-- The policies of a business type, as they are written for a set of apps. -/
structure PolicyTable where
  apps : List Bytes
  written : List WrittenPolicy
  nonempty : ∀ app ∈ apps, app ≠ []
  named : str "default" ∉ apps
  owned : ∀ w ∈ written, ∀ app, w.owner = some app → app ∈ apps ∧ KeyOf app w.key
  default : ∀ w ∈ written, w.owner = none → w.key = str "default"
  distinct : (written.map WrittenPolicy.key).Nodup

namespace PolicyTable

variable (table : PolicyTable)

/-- The map that loading the table makes. -/
def productPolicyMap : UnorderedMap Bytes Policy :=
  assignAll (table.written.map fun w => (w.key, w.policy)) ∅

/-- The policy that a request with these values is given. -/
structure Selects (app appVer appLan : Bytes) (w : WrittenPolicy) : Prop where
  mem : w ∈ table.written
  key : w.key = DyeingOnlinePlugin.productId table.productPolicyMap app appVer appLan

/-- No request of an app of the set is given a policy that is written for another app. -/
def Confined : Prop :=
  ∀ app ∈ table.apps, ∀ appVer appLan w, table.Selects app appVer appLan w →
    w.owner = some app ∨ w.owner = none

/-- No app begins the key of a policy for another app, and where an app has a policy under the key
of the default policy, all other apps have one under their own name. -/
structure Separated : Prop where
  apart : ∀ w ∈ table.written, ∀ owner, w.owner = some owner →
    ∀ app ∈ table.apps, app ≠ owner → ¬app <+: w.key
  shielded : ∀ w ∈ table.written, ∀ owner, w.owner = some owner → w.key = str "default" →
    ∀ app ∈ table.apps, app ≠ owner → ∃ v ∈ table.written, v.key = app

variable {table}

theorem lookup_productPolicyMap {key : Bytes} {policy : Policy} :
    table.productPolicyMap.lookup key = some policy ↔
      ∃ w ∈ table.written, w.key = key ∧ w.policy = policy := by
  have distinct : ((table.written.map fun w => (w.key, w.policy)).map Prod.fst).Nodup := by
    rw [List.map_map]
    exact table.distinct
  rw [productPolicyMap, lookup_assignAll, Finmap.lookup_empty, Option.or_none,
    lastValue_of_nodup distinct, List.mem_map]
  simp only [Prod.mk.injEq]

theorem mem_productPolicyMap {key : Bytes} :
    key ∈ table.productPolicyMap ↔ ∃ w ∈ table.written, w.key = key := by
  rw [Finmap.mem_iff]
  constructor
  · intro ⟨policy, h⟩
    obtain ⟨w, hw, hkey, -⟩ := lookup_productPolicyMap.mp h
    exact ⟨w, hw, hkey⟩
  · intro ⟨w, hw, hkey⟩
    exact ⟨w.policy, lookup_productPolicyMap.mpr ⟨w, hw, hkey, rfl⟩⟩

/-- What `get` looks up is the policy that the table selects. -/
theorem selectPolicy_eq_some {plugin : DyeingOnlinePlugin} {businessType : Bytes}
    (loaded : plugin.policyMap.lookup businessType = some table.productPolicyMap)
    {app appVer appLan : Bytes} {policy : Policy} :
    plugin.selectPolicy app appVer appLan businessType = some policy ↔
      ∃ w, table.Selects app appVer appLan w ∧ w.policy = policy := by
  simp only [DyeingOnlinePlugin.selectPolicy, loaded, lookup_productPolicyMap]
  constructor
  · intro ⟨w, hw, hkey, hpolicy⟩
    exact ⟨w, ⟨hw, hkey⟩, hpolicy⟩
  · intro ⟨w, selects, hpolicy⟩
    exact ⟨w, selects.mem, selects.key, hpolicy⟩

end PolicyTable

namespace DyeingOnlinePlugin

variable {m : UnorderedMap Bytes Policy} {app appVer appLan : Bytes}

theorem productId_of_mem (h : app ++ appVer ++ appLan ∈ m) :
    productId m app appVer appLan = app ++ appVer ++ appLan := if_pos h

/-- The key begins with the app, or it is the key of the default policy. -/
theorem prefix_or_default (m : UnorderedMap Bytes Policy) (app appVer appLan : Bytes) :
    app <+: productId m app appVer appLan ∨
      app ∉ m ∧ productId m app appVer appLan = str "default" := by
  unfold productId
  split
  · rw [List.append_assoc]
    exact .inl (List.prefix_append _ _)
  split
  · exact .inl (List.prefix_append _ _)
  split
  · exact .inl (List.prefix_append _ _)
  split
  · exact .inl (List.prefix_refl _)
  · rename_i h
    exact .inr ⟨h, rfl⟩

theorem productId_default (h : app ∉ m) : productId m app [] [] = str "default" := by
  simp [productId, h]

end DyeingOnlinePlugin

namespace PolicyTable

open DyeingOnlinePlugin

theorem Separated.confined {table : PolicyTable} (separated : table.Separated) :
    table.Confined := by
  intro app happ appVer appLan w selects
  by_contra leak
  obtain ⟨hown, hnone⟩ := not_or.mp leak
  obtain ⟨owner, howner⟩ := Option.ne_none_iff_exists'.mp hnone
  have other : app ≠ owner := fun same => hown (same ▸ howner)
  rcases prefix_or_default table.productPolicyMap app appVer appLan with begins | ⟨hmem, hdefault⟩
  · rw [← selects.key] at begins
    exact separated.apart w selects.mem owner howner app happ other begins
  · rw [← selects.key] at hdefault
    exact hmem (mem_productPolicyMap.mpr
      (separated.shielded w selects.mem owner howner hdefault app happ other))

theorem Confined.separated {table : PolicyTable} (confined : table.Confined) :
    table.Separated where
  apart := by
    intro w hw owner howner app happ other ⟨appVer, hkey⟩
    have hmem : app ++ appVer ++ [] ∈ table.productPolicyMap :=
      mem_productPolicyMap.mpr ⟨w, hw, by rw [List.append_nil, hkey]⟩
    have selects : table.Selects app appVer [] w :=
      ⟨hw, by rw [productId_of_mem hmem, List.append_nil, hkey]⟩
    rcases confined app happ appVer [] w selects with hown | hnone
    · exact other (Option.some.inj (hown.symm.trans howner))
    · rw [howner] at hnone
      cases hnone
  shielded := by
    intro w hw owner howner hkey app happ other
    by_contra hmem
    have selects : table.Selects app [] [] w :=
      ⟨hw, by rw [productId_default (mt mem_productPolicyMap.mp hmem), hkey]⟩
    rcases confined app happ [] [] w selects with hown | hnone
    · exact other (Option.some.inj (hown.symm.trans howner))
    · rw [howner] at hnone
      cases hnone

/-- Every request is given a policy of its own app or the default policy exactly when the keys of
the table keep the apps apart. -/
theorem confined_iff_separated (table : PolicyTable) {plugin : DyeingOnlinePlugin}
    {businessType : Bytes}
    (loaded : plugin.policyMap.lookup businessType = some table.productPolicyMap) :
    (∀ app appVer appLan policy,
        plugin.selectPolicy app appVer appLan businessType = some policy ↔
          ∃ w, table.Selects app appVer appLan w ∧ w.policy = policy) ∧
      (table.Confined ↔ table.Separated) :=
  ⟨fun _ _ _ _ => selectPolicy_eq_some loaded, Confined.separated, Separated.confined⟩

/-- A policy for version 1 of an app, the default policy, and an app that has none of its own. -/
def apart : PolicyTable where
  apps := [str "hot", str "fresh"]
  written := [⟨some (str "hot"), str "hot1", ⟨7, str "h", []⟩⟩,
    ⟨none, str "default", ⟨9, str "d", []⟩⟩]
  nonempty := by decide
  named := by decide
  owned := by
    intro w hw app howner
    rcases List.mem_pair.mp hw with rfl | rfl
    · obtain rfl : str "hot" = app := Option.some.inj howner
      exact ⟨by decide, .appVer (str "1")⟩
    · cases howner
  default := by decide
  distinct := by decide

theorem apart_separated : apart.Separated where
  apart := by
    intro w hw owner howner app happ other
    rcases List.mem_pair.mp hw with rfl | rfl
    · obtain rfl : str "hot" = owner := Option.some.inj howner
      rcases List.mem_pair.mp happ with rfl | rfl
      · exact absurd rfl other
      · decide
    · cases howner
  shielded := by
    intro w hw owner howner hkey
    rcases List.mem_pair.mp hw with rfl | rfl
    · exact absurd hkey (by decide)
    · cases howner

/-- A plugin that has loaded the table for one business type. -/
def plugin (table : PolicyTable) (businessType : Bytes) : DyeingOnlinePlugin :=
  ⟨str "/o", (∅ : UnorderedMap Bytes _).insert businessType table.productPolicyMap⟩

theorem confined_iff_separated_apart : apart.Confined :=
  have loaded : (apart.plugin (str "t")).policyMap.lookup (str "t") = some apart.productPolicyMap :=
    Finmap.lookup_insert _
  (confined_iff_separated apart loaded).2.mpr apart_separated

/-- The app `ab`, whose key is also the app `a` with the version `b`. -/
def overlapping : PolicyTable where
  apps := [str "a", str "ab"]
  written := [⟨some (str "ab"), str "ab", ⟨7, str "p", []⟩⟩]
  nonempty := by decide
  named := by decide
  owned := by
    intro w hw app howner
    obtain rfl := List.mem_singleton.mp hw
    obtain rfl : str "ab" = app := Option.some.inj howner
    exact ⟨by decide, .app⟩
  default := by decide
  distinct := by decide

theorem app_given_policy_of_another :
    ¬overlapping.Confined ∧
      ∃ w, overlapping.Selects (str "a") (str "b") [] w ∧ w.owner = some (str "ab") ∧
        (overlapping.plugin (str "t")).selectPolicy (str "a") (str "b") [] (str "t") =
          some w.policy := by
  have hmem : str "a" ++ str "b" ++ [] ∈ overlapping.productPolicyMap :=
    mem_productPolicyMap.mpr ⟨_, List.mem_singleton.mpr rfl, rfl⟩
  have selects : overlapping.Selects (str "a") (str "b") []
      ⟨some (str "ab"), str "ab", ⟨7, str "p", []⟩⟩ :=
    ⟨List.mem_singleton.mpr rfl, (productId_of_mem hmem).symm⟩
  refine ⟨fun confined => ?_, _, selects, rfl,
    (selectPolicy_eq_some (Finmap.lookup_insert _)).mpr ⟨_, selects, rfl⟩⟩
  rcases confined (str "a") (by decide) (str "b") [] _ selects with hown | hnone
  · exact absurd hown (by decide)
  · cases hnone

end PolicyTable

end ABDyeing
