import ABDyeing.Lib.UnorderedMap
import ABDyeing.QConfig

/-! `DyeingOnlinePlugin::get`: the choice of a policy by product, the bucket of a user, and the
config id of the segment that the bucket falls into. -/

namespace ABDyeing

open Lib

/-- `CityHash64WithSeed(s, len, seed)`. -/
abbrev CityHash := Bytes → UInt32 → UInt64

structure ConfIdInfo where
  confId : Bytes
  startId : UInt32
  endId : UInt32
  deriving DecidableEq

/-- A policy; `idPrefix` is the field `prefix`. -/
structure Policy where
  seed : UInt32
  idPrefix : Bytes
  confIdInfos : List ConfIdInfo
  deriving DecidableEq

/-- `DyeingOnlinePlugin`: `pathPrefix` is the field `_prefix`. -/
structure DyeingOnlinePlugin where
  pathPrefix : Bytes
  policyMap : UnorderedMap Bytes (UnorderedMap Bytes Policy)

namespace DyeingOnlinePlugin

def new (pathPrefix : Bytes) : DyeingOnlinePlugin := ⟨pathPrefix, ∅⟩

def productId (productPolicyMap : UnorderedMap Bytes Policy) (app appVer appLan : Bytes) : Bytes :=
  if app ++ appVer ++ appLan ∈ productPolicyMap then app ++ appVer ++ appLan
  else if app ++ appLan ∈ productPolicyMap then app ++ appLan
  else if app ++ appVer ∈ productPolicyMap then app ++ appVer
  else if app ∈ productPolicyMap then app
  else str "default"

def selectPolicy (plugin : DyeingOnlinePlugin) (app appVer appLan businessType : Bytes) :
    Option Policy :=
  match plugin.policyMap.lookup businessType with
  | none => none
  | some productPolicyMap => productPolicyMap.lookup (productId productPolicyMap app appVer appLan)

end DyeingOnlinePlugin

def maxConfigId : UInt64 := 1000

def bucket (city : CityHash) (uid : Bytes) (policy : Policy) : UInt64 :=
  city uid policy.seed % maxConfigId

def ConfIdInfo.Covers (info : ConfIdInfo) (hv : UInt64) : Prop :=
  info.startId.toUInt64 ≤ hv ∧ hv ≤ info.endId.toUInt64

instance (info : ConfIdInfo) (hv : UInt64) : Decidable (info.Covers hv) :=
  inferInstanceAs (Decidable (_ ∧ _))

/-- The loop of `get`: the conf_id of the first segment that covers `hv`, or the empty string. -/
def matchConfId (hv : UInt64) : List ConfIdInfo → Bytes
  | [] => []
  | info :: rest => if info.Covers hv then info.confId else matchConfId hv rest

/-- The conf_id for the bucket `hv`.  Without a match, and where the match has an empty conf_id, it
is read from the first segment, whether there is one or not. -/
def Policy.confIdFor (policy : Policy) (hv : UInt64) : Outcome Exception Bytes :=
  let confId := matchConfId hv policy.confIdInfos
  if confId.isEmpty then do
    let first ← vectorAt policy.confIdInfos 0
    return first.confId
  else return confId

/-- `DyeingOnlinePlugin::get`; `none` is the result `false`, which leaves `config_id` alone. -/
def DyeingOnlinePlugin.get (city : CityHash) (plugin : DyeingOnlinePlugin)
    (uid app appVer appLan businessType : Bytes) : Outcome Exception (Option Bytes) :=
  match plugin.selectPolicy app appVer appLan businessType with
  | none => return none
  | some policy => do
    let confId ← policy.confIdFor (bucket city uid policy)
    return some (policy.idPrefix ++ confId)

theorem Policy.confIdFor_of_match {policy : Policy} {hv : UInt64}
    (h : matchConfId hv policy.confIdInfos ≠ []) :
    policy.confIdFor hv = .ok (matchConfId hv policy.confIdInfos) := by
  rw [confIdFor, if_neg (by simpa using h)]
  rfl

theorem Policy.confIdFor_fallback {policy : Policy} {hv : UInt64} {first : ConfIdInfo}
    {rest : List ConfIdInfo} (hinfos : policy.confIdInfos = first :: rest)
    (h : matchConfId hv policy.confIdInfos = []) : policy.confIdFor hv = .ok first.confId := by
  rw [confIdFor, if_pos (by simp [h]), hinfos]
  rfl

theorem Policy.confIdFor_eq_undefined (policy : Policy) (hv : UInt64) :
    policy.confIdFor hv = .error .undefined ↔ policy.confIdInfos = [] := by
  constructor
  · intro h
    by_contra hne
    obtain ⟨first, rest, hinfos⟩ := List.exists_cons_of_ne_nil hne
    by_cases hmatch : matchConfId hv policy.confIdInfos = []
    · rw [confIdFor_fallback hinfos hmatch] at h
      cases h
    · rw [confIdFor_of_match hmatch] at h
      cases h
  · intro h
    rw [confIdFor, h]
    rfl

end ABDyeing
