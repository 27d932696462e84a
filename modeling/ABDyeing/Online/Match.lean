import ABDyeing.Online.Buckets
import ABDyeing.Online.Load

/-! The segment that decides the config id of a user: the first one in listed order that covers the
bucket, as long as its conf_id is not empty.  Where the segments are disjoint their order does not
matter, so a conf_id that only grows keeps every user it has. -/

namespace ABDyeing

open Lib

def ConfIdInfo.Contains (info : ConfIdInfo) (x : Int) : Prop :=
  info.startId.toNat ≤ x ∧ x ≤ info.endId.toNat

def ConfIdInfo.Apart (a b : ConfIdInfo) : Prop := ∀ x, ¬(a.Contains x ∧ b.Contains x)

instance apart_symm : Std.Symm ConfIdInfo.Apart := ⟨fun _ _ apart x both => apart x both.symm⟩

namespace Policy

/-- The first segment in listed order that covers `hv`. -/
def firstCover (policy : Policy) (hv : UInt64) : Option ConfIdInfo :=
  policy.confIdInfos.find? fun info => decide (info.Covers hv)

/-- The loop has left `conf_id` empty, and `get` takes the first segment for lack of a match. -/
def FallsBack (policy : Policy) (hv : UInt64) : Prop :=
  matchConfId hv policy.confIdInfos = []

/-- Some segment with the conf_id `c` contains `x`. -/
def Labels (policy : Policy) (c : Bytes) (x : Int) : Prop :=
  ∃ info ∈ policy.confIdInfos, info.confId = c ∧ info.Contains x

structure Segmented (policy : Policy) : Prop where
  disjoint : policy.confIdInfos.Pairwise ConfIdInfo.Apart
  named : ∀ info ∈ policy.confIdInfos, info.confId ≠ []

/-- Every request that selects the policy is given `configId` for `uid`. -/
def Gives (policy : Policy) (city : CityHash) (uid configId : Bytes) : Prop :=
  ∀ (plugin : DyeingOnlinePlugin) (app appVer appLan businessType : Bytes),
    plugin.selectPolicy app appVer appLan businessType = some policy →
    plugin.get city uid app appVer appLan businessType = .ok (some configId)

end Policy

theorem covers_iff_contains {info : ConfIdInfo} {hv : UInt64} :
    info.Covers hv ↔ info.Contains hv.toNat := by
  simp only [ConfIdInfo.Covers, ConfIdInfo.Contains, UInt64.le_iff_toNat_le, UInt32.toNat_toUInt64,
    Int.ofNat_le]

theorem matchConfId_eq_find (hv : UInt64) (infos : List ConfIdInfo) :
    matchConfId hv infos =
      ((infos.find? fun info => decide (info.Covers hv)).map ConfIdInfo.confId).getD [] := by
  induction infos with
  | nil => rfl
  | cons info rest ih =>
    by_cases hit : info.Covers hv
    · rw [matchConfId, if_pos hit, List.find?_cons_of_pos (by simpa using hit)]
      rfl
    · rw [matchConfId, if_neg hit, List.find?_cons_of_neg (by simpa using hit), ih]

namespace Policy

variable {policy : Policy} {hv : UInt64} {info : ConfIdInfo}

theorem matchConfId_of_firstCover (h : policy.firstCover hv = some info) :
    matchConfId hv policy.confIdInfos = info.confId := by
  rw [matchConfId_eq_find]
  rw [firstCover] at h
  rw [h]
  rfl

theorem firstCover_eq_none :
    policy.firstCover hv = none ↔ ∀ info ∈ policy.confIdInfos, ¬info.Covers hv := by
  simp [firstCover]

theorem fallsBack_iff :
    policy.FallsBack hv ↔ ∀ info, policy.firstCover hv = some info → info.confId = [] := by
  unfold FallsBack
  cases h : policy.firstCover hv with
  | none =>
    rw [matchConfId_eq_find]
    rw [firstCover] at h
    simp [h]
  | some first => simp [matchConfId_of_firstCover h]

/-- Disjoint segments leave one candidate, wherever it is listed. -/
theorem Segmented.firstCover_eq (segmented : policy.Segmented) (hmem : info ∈ policy.confIdInfos)
    (hcovers : info.Covers hv) : policy.firstCover hv = some info := by
  cases h : policy.firstCover hv with
  | none => exact absurd hcovers (firstCover_eq_none.mp h info hmem)
  | some first =>
    have hfirst : first ∈ policy.confIdInfos := List.mem_of_find?_eq_some h
    have hit : first.Covers hv := by simpa using List.find?_some h
    by_cases same : first = info
    · rw [same]
    · have apart := segmented.disjoint.forall hfirst hmem same
      exact absurd ⟨covers_iff_contains.mp hit, covers_iff_contains.mp hcovers⟩ (apart _)

theorem gives_of_confIdFor {city : CityHash} {uid confId : Bytes}
    (h : policy.confIdFor (bucket city uid policy) = .ok confId) :
    policy.Gives city uid (policy.idPrefix ++ confId) := by
  intro plugin app appVer appLan businessType hselect
  rw [DyeingOnlinePlugin.get, hselect]
  simp only [h, bind, Except.bind, pure, Except.pure]

theorem Segmented.gives (segmented : policy.Segmented) {city : CityHash} {uid c : Bytes}
    (h : policy.Labels c (bucket city uid policy).toNat) :
    policy.Gives city uid (policy.idPrefix ++ c) := by
  obtain ⟨info, hmem, rfl, hcontains⟩ := h
  have hfirst := segmented.firstCover_eq hmem (covers_iff_contains.mpr hcontains)
  have hmatch := matchConfId_of_firstCover hfirst
  apply gives_of_confIdFor
  rw [confIdFor_of_match (hmatch ▸ segmented.named info hmem), hmatch]

end Policy

/-- Between two policies with one prefix and seed, a conf_id that keeps its integers keeps its
users, who have the same config id under both. -/
theorem grown_keeps_users {before after : Policy} (samePrefix : after.idPrefix = before.idPrefix)
    (sameSeed : after.seed = before.seed) (hbefore : before.Segmented) (hafter : after.Segmented)
    {c : Bytes} (grows : ∀ x, before.Labels c x → after.Labels c x) (city : CityHash)
    {uid : Bytes} (h : before.Labels c (bucket city uid before).toNat) :
    before.Gives city uid (before.idPrefix ++ c) ∧ after.Gives city uid (before.idPrefix ++ c) := by
  have sameBucket : bucket city uid after = bucket city uid before := by
    rw [bucket, bucket, sameSeed]
  refine ⟨hbefore.gives h, ?_⟩
  rw [← samePrefix]
  exact hafter.gives (by rw [sameBucket]; exact grows _ h)

def rampBefore : Policy := ⟨7, str "p", [⟨str "a", 1, 10⟩, ⟨str "b", 11, 1000⟩]⟩

def rampAfter : Policy :=
  ⟨7, str "p", [⟨str "c", 50, 1000⟩, ⟨str "a", 0, 0⟩, ⟨str "a", 1, 40⟩]⟩

theorem apart_of_lt {a b : ConfIdInfo} (h : a.endId < b.startId ∨ b.endId < a.startId) :
    a.Apart b := by
  intro x ⟨ha, hb⟩
  simp only [ConfIdInfo.Contains] at ha hb
  simp only [UInt32.lt_iff_toNat_lt] at h
  omega

theorem rampBefore_segmented : rampBefore.Segmented where
  disjoint := List.Pairwise.imp apart_of_lt (by decide)
  named := by decide

theorem rampAfter_segmented : rampAfter.Segmented where
  disjoint := List.Pairwise.imp apart_of_lt (by decide)
  named := by decide

theorem rampAfter_grows (x : Int) (h : rampBefore.Labels (str "a") x) :
    rampAfter.Labels (str "a") x := by
  obtain ⟨info, hmem, hlabel, hcontains⟩ := h
  simp only [rampBefore, List.mem_cons, List.not_mem_nil, or_false] at hmem
  rcases hmem with rfl | rfl
  · exact ⟨⟨str "a", 1, 40⟩, by simp [rampAfter], rfl, hcontains.1, hcontains.2.trans (by decide)⟩
  · exact absurd hlabel (by decide)

theorem grown_keeps_users_example :
    (singlePolicy rampBefore).get (fun _ _ => 2005) (str "u") (str "a") [] [] (str "t") =
        .ok (some (str "pa")) ∧
      (singlePolicy rampAfter).get (fun _ _ => 2005) (str "u") (str "a") [] [] (str "t") =
        .ok (some (str "pa")) := by
  have samePrefix : rampAfter.idPrefix = rampBefore.idPrefix := rfl
  have hlabels : rampBefore.Labels (str "a")
      (bucket (fun _ _ => 2005) (str "u") rampBefore).toNat :=
    ⟨⟨str "a", 1, 10⟩, by simp [rampBefore], rfl, by unfold ConfIdInfo.Contains; decide⟩
  obtain ⟨givenBefore, givenAfter⟩ := grown_keeps_users samePrefix rfl rampBefore_segmented
    rampAfter_segmented rampAfter_grows (fun _ _ => 2005) hlabels
  exact ⟨givenBefore _ _ _ _ _ (singlePolicy_select rampBefore),
    givenAfter _ _ _ _ _ (singlePolicy_select rampAfter)⟩

section FirstMatch

variable (policy : Policy) (hv : UInt64) (answer : Outcome Exception (Option Bytes))

/-- The config id is the one of the first segment that covers the bucket. -/
def AnsweredByFirst : Prop :=
  ∀ info, policy.firstCover hv = some info → answer = .ok (some (policy.idPrefix ++ info.confId))

/-- The policy's first segment stands in for a match only where no segment covers the bucket. -/
def FallsBackRightly : Prop := policy.FallsBack hv → ∀ info ∈ policy.confIdInfos, ¬info.Covers hv

/-- The first segment that covers the bucket, if there is one, has a conf_id. -/
def FirstCoverNamed : Prop := ∀ info, policy.firstCover hv = some info → info.confId ≠ []

end FirstMatch

theorem answer_of_covered {city : CityHash} {plugin : DyeingOnlinePlugin}
    {app appVer appLan businessType : Bytes} {policy : Policy}
    (hselect : plugin.selectPolicy app appVer appLan businessType = some policy) {uid : Bytes}
    {info : ConfIdInfo} (h : policy.firstCover (bucket city uid policy) = some info)
    {first : ConfIdInfo} (hfirst : policy.confIdInfos.head? = some first) :
    plugin.get city uid app appVer appLan businessType = .ok (some (policy.idPrefix ++
      if info.confId = [] then first.confId else info.confId)) := by
  have hmatch := Policy.matchConfId_of_firstCover h
  refine Policy.gives_of_confIdFor ?_ plugin app appVer appLan businessType hselect
  split
  · rename_i hempty
    obtain ⟨rest, hinfos⟩ := List.head?_eq_some_iff.mp hfirst
    exact Policy.confIdFor_fallback hinfos (hmatch.trans hempty)
  · rename_i hnamed
    rw [Policy.confIdFor_of_match (hmatch ▸ hnamed), hmatch]

theorem fallsBackRightly_iff {policy : Policy} {hv : UInt64} :
    FallsBackRightly policy hv ↔ FirstCoverNamed policy hv := by
  constructor
  · intro rightly info hinfo hnone
    have hcovers : info.Covers hv := by simpa using List.find?_some hinfo
    have falls : policy.FallsBack hv := (Policy.matchConfId_of_firstCover hinfo).trans hnone
    exact rightly falls info (List.mem_of_find?_eq_some hinfo) hcovers
  · intro named falls
    apply Policy.firstCover_eq_none.mp
    cases hcover : policy.firstCover hv with
    | none => rfl
    | some info => exact absurd (Policy.fallsBack_iff.mp falls info hcover) (named info hcover)

section Answers

variable {plugin : DyeingOnlinePlugin} {app appVer appLan businessType : Bytes} {policy : Policy}
  (hselect : plugin.selectPolicy app appVer appLan businessType = some policy) {first : ConfIdInfo}
  (hfirst : policy.confIdInfos.head? = some first) (city : CityHash) (uid : Bytes)

include hselect hfirst

/-- The answer is the first cover's where that has a conf_id, and by chance where the policy's first
segment has none either. -/
theorem answeredByFirst_iff_or :
    AnsweredByFirst policy (bucket city uid policy)
        (plugin.get city uid app appVer appLan businessType) ↔
      FirstCoverNamed policy (bucket city uid policy) ∨ first.confId = [] := by
  constructor
  · intro h
    by_cases hempty : first.confId = []
    · exact .inr hempty
    · refine .inl fun info hinfo hnone => hempty ?_
      have same := (answer_of_covered hselect hinfo hfirst).symm.trans (h info hinfo)
      simpa [hnone] using same
  · intro h info hinfo
    rw [answer_of_covered hselect hinfo hfirst]
    split
    · rename_i hnone
      rw [h.resolve_left fun named => named info hinfo hnone, hnone]
    · rfl

end Answers

/-- A request is answered by the first segment that covers the bucket, with the policy's first
segment as a substitute for none, if and only if that segment has a conf_id.  Where it has none, the
answer is the right one only where the policy's first segment has none either. -/
theorem answeredByFirst_iff {plugin : DyeingOnlinePlugin} {app appVer appLan businessType : Bytes}
    {policy : Policy}
    (hselect : plugin.selectPolicy app appVer appLan businessType = some policy)
    {first : ConfIdInfo} (hfirst : policy.confIdInfos.head? = some first) (city : CityHash)
    (uid : Bytes) :
    let hv := bucket city uid policy
    let answer := plugin.get city uid app appVer appLan businessType
    (AnsweredByFirst policy hv answer ∧ FallsBackRightly policy hv ↔ FirstCoverNamed policy hv) ∧
      (AnsweredByFirst policy hv answer ↔ FirstCoverNamed policy hv ∨ first.confId = []) := by
  intro hv answer
  have answered := answeredByFirst_iff_or hselect hfirst city uid
  refine ⟨⟨fun h => fallsBackRightly_iff.mp h.2, fun named => ?_⟩, answered⟩
  exact ⟨answered.mpr (.inl named), fallsBackRightly_iff.mpr named⟩

theorem answeredByFirst_iff_example :
    AnsweredByFirst rampBefore 5 (.ok (some (str "pa"))) ∧ FallsBackRightly rampBefore 5 :=
  (answeredByFirst_iff (singlePolicy_select rampBefore) rfl (fun _ _ => 2005) (str "u")).1.mpr
    fun info hinfo => by
      obtain rfl : ⟨str "a", 1, 10⟩ = info := Option.some.inj hinfo
      decide

/-- A segment without a conf_id for all buckets, listed after one for none. -/
def unnamedText : Bytes := str "default|p:7:a,1000,1000:,0,999"

/-- Every bucket lies in the second segment, and the user is given the first one's config id. -/
theorem answeredByFirst_fails_example :
    let plugin := ((DyeingOnlinePlugin.new (str "/o")).loadText (str "t") unnamedText).2
    let policy : Policy := ⟨7, str "p", [⟨str "a", 1000, 1000⟩, ⟨[], 0, 999⟩]⟩
    plugin.selectPolicy (str "app") [] [] (str "t") = some policy ∧
      ¬(AnsweredByFirst policy (bucket (fun _ _ => 2005) (str "u") policy)
          (plugin.get (fun _ _ => 2005) (str "u") (str "app") [] [] (str "t")) ∧
        FallsBackRightly policy (bucket (fun _ _ => 2005) (str "u") policy)) := by
  intro plugin policy
  have hselect : plugin.selectPolicy (str "app") [] [] (str "t") = some policy := by decide
  have hcover : policy.firstCover (bucket (fun _ _ => 2005) (str "u") policy) =
      some ⟨[], 0, 999⟩ := by decide
  have value := answer_of_covered hselect hcover rfl
  refine ⟨hselect, fun ⟨h, _⟩ => ?_⟩
  have right := value.symm.trans (h _ hcover)
  simp [policy, str] at right

end ABDyeing
