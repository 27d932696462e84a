import Mathlib.Data.Finset.Card
import Mathlib.Data.Nat.Count
import Mathlib.Order.Interval.Finset.Nat
import ABDyeing.Online.Policy

/-! The share of the 1000 buckets that each segment of a policy receives.  The documented ranges
count from 1 to 1000 and the buckets from 0 to 999, so bucket 0 falls back to the first segment and
the number 1000 of the last one stands for no bucket. -/

namespace ABDyeing

open Lib

/-- Closed ranges that follow one another from `lo` and end at 1000. -/
def Tiles : Nat → List ConfIdInfo → Prop
  | lo, [] => lo = 1001
  | lo, info :: rest =>
    info.startId.toNat = lo ∧ lo ≤ info.endId.toNat + 1 ∧ Tiles (info.endId.toNat + 1) rest

/-- A policy whose segments tile 1..1000 under names of their own. -/
structure Policy.Documented (policy : Policy) : Prop where
  tiles : Tiles 1 policy.confIdInfos
  named : ∀ info ∈ policy.confIdInfos, info.confId ≠ []
  distinct : (policy.confIdInfos.map ConfIdInfo.confId).Nodup

namespace DyeingOnlinePlugin

def answer (plugin : DyeingOnlinePlugin) (app appVer appLan businessType : Bytes) (hv : UInt64) :
    Outcome Exception (Option Bytes) :=
  plugin.get (fun _ _ => hv) [] app appVer appLan businessType

/-- How many of the buckets 0..999 are given `configId`. -/
def share (plugin : DyeingOnlinePlugin) (app appVer appLan businessType configId : Bytes) : Nat :=
  Nat.count (fun b =>
    plugin.answer app appVer appLan businessType (UInt64.ofNat b) = .ok (some configId)) 1000

end DyeingOnlinePlugin

theorem count_congr {p q : Nat → Prop} [DecidablePred p] [DecidablePred q] {n : Nat}
    (h : ∀ b < n, p b ↔ q b) : Nat.count p n = Nat.count q n := by
  rw [Nat.count_eq_card_filter_range, Nat.count_eq_card_filter_range]
  congr 1
  exact Finset.filter_congr fun b hb => h b (Finset.mem_range.mp hb)

theorem count_range (lo hi n : Nat) :
    Nat.count (fun b => lo ≤ b ∧ b ≤ hi) n = min n (hi + 1) - lo := by
  have hset : (Finset.range n).filter (fun b => lo ≤ b ∧ b ≤ hi) =
      Finset.Ico lo (min n (hi + 1)) := by
    ext b
    simp only [Finset.mem_filter, Finset.mem_range, Finset.mem_Ico]
    omega
  rw [Nat.count_eq_card_filter_range, hset, Nat.card_Ico]

theorem covers_ofNat {info : ConfIdInfo} {b : Nat} (hb : b ≤ 1000) :
    info.Covers (UInt64.ofNat b) ↔ info.startId.toNat ≤ b ∧ b ≤ info.endId.toNat := by
  have value : (UInt64.ofNat b).toNat = b :=
    UInt64.toNat_ofNat_of_lt' (by simp [UInt64.size]; omega)
  simp only [ConfIdInfo.Covers, UInt64.le_iff_toNat_le, UInt32.toNat_toUInt64, value]

theorem matchConfId_mem (hv : UInt64) (infos : List ConfIdInfo) :
    matchConfId hv infos = [] ∨ matchConfId hv infos ∈ infos.map ConfIdInfo.confId := by
  induction infos with
  | nil => exact .inl rfl
  | cons info rest ih =>
    rw [matchConfId, List.map_cons, List.mem_cons]
    split
    · exact .inr (.inl rfl)
    · exact ih.imp_right .inr

theorem tiles_bounds {lo : Nat} {infos : List ConfIdInfo} (tiles : Tiles lo infos) :
    lo ≤ 1001 ∧ ∀ info ∈ infos, lo ≤ info.startId.toNat ∧
      info.startId.toNat ≤ info.endId.toNat + 1 ∧ info.endId.toNat ≤ 1000 := by
  induction infos generalizing lo with
  | nil => exact ⟨tiles.le, by simp⟩
  | cons first rest ih =>
    obtain ⟨hstart, hle, htail⟩ := tiles
    obtain ⟨htop, hrest⟩ := ih htail
    refine ⟨by omega, fun info hinfo => ?_⟩
    rcases List.mem_cons.mp hinfo with rfl | hinfo
    · exact ⟨by omega, by omega, by omega⟩
    · have := hrest info hinfo
      exact ⟨by omega, this.2⟩

theorem matchConfId_eq_nil_iff {lo b : Nat} {infos : List ConfIdInfo} (tiles : Tiles lo infos)
    (named : ∀ info ∈ infos, info.confId ≠ []) (hb : b ≤ 1000) :
    matchConfId (UInt64.ofNat b) infos = [] ↔ b < lo := by
  induction infos generalizing lo with
  | nil =>
    have hlo : lo = 1001 := tiles
    simp [matchConfId]
    omega
  | cons first rest ih =>
    obtain ⟨hstart, hle, htail⟩ := tiles
    rw [matchConfId]
    split
    · rename_i covers
      have := (covers_ofNat hb).mp covers
      have hname := named first (by simp)
      simp only [hname, false_iff]
      omega
    · rename_i miss
      rw [covers_ofNat hb] at miss
      rw [ih htail fun info h => named info (by simp [h])]
      omega

theorem matchConfId_eq_iff {lo b : Nat} {infos : List ConfIdInfo} (tiles : Tiles lo infos)
    (named : ∀ info ∈ infos, info.confId ≠ [])
    (distinct : (infos.map ConfIdInfo.confId).Nodup) (hb : b ≤ 1000) {info : ConfIdInfo}
    (hinfo : info ∈ infos) :
    matchConfId (UInt64.ofNat b) infos = info.confId ↔
      info.startId.toNat ≤ b ∧ b ≤ info.endId.toNat := by
  induction infos generalizing lo with
  | nil => simp at hinfo
  | cons first rest ih =>
    obtain ⟨hstart, hle, htail⟩ := tiles
    obtain ⟨fresh, distinct⟩ := List.nodup_cons.mp distinct
    have hname := named first (by simp)
    rw [matchConfId]
    rcases List.mem_cons.mp hinfo with rfl | hinfo
    · split
      · rename_i covers
        simp only [true_iff]
        exact (covers_ofNat hb).mp covers
      · rename_i miss
        rw [covers_ofNat hb] at miss
        simp only [miss, iff_false]
        intro heq
        rcases matchConfId_mem (UInt64.ofNat b) rest with hnil | hmem
        · exact hname (heq ▸ hnil)
        · exact fresh (heq ▸ hmem)
    · split
      · rename_i covers
        have hin := (covers_ofNat hb).mp covers
        have hother := (tiles_bounds htail).2 info hinfo
        have hne : first.confId ≠ info.confId :=
          fun h => fresh (h ▸ List.mem_map_of_mem hinfo)
        simp only [hne, false_iff]
        omega
      · exact ih htail (fun i h => named i (by simp [h])) distinct hinfo

/-- The conf_id of bucket 0 is the first one, that of another bucket the one whose range it is
in. -/
theorem Policy.Documented.confIdFor_eq_iff {policy : Policy} (doc : policy.Documented) {b : Nat}
    (hb : b ≤ 1000) {first : ConfIdInfo} {rest : List ConfIdInfo}
    (hinfos : policy.confIdInfos = first :: rest) {info : ConfIdInfo}
    (hinfo : info ∈ policy.confIdInfos) :
    policy.confIdFor (UInt64.ofNat b) = .ok info.confId ↔
      (b = 0 ∧ info = first) ∨ (info.startId.toNat ≤ b ∧ b ≤ info.endId.toNat) := by
  have hnil := matchConfId_eq_nil_iff doc.tiles doc.named hb
  have heq := matchConfId_eq_iff doc.tiles doc.named doc.distinct hb hinfo
  have hstart := ((tiles_bounds doc.tiles).2 info hinfo).1
  by_cases hzero : b = 0
  · have hfallback := Policy.confIdFor_fallback hinfos (hnil.mpr (by omega))
    have inj := List.inj_on_of_nodup_map doc.distinct
    rw [hfallback, Except.ok.injEq]
    constructor
    · intro h
      exact .inl ⟨hzero, (inj (hinfos ▸ List.mem_cons_self) hinfo h).symm⟩
    · rintro (⟨-, rfl⟩ | ⟨hlow, -⟩)
      · rfl
      · omega
  · rw [Policy.confIdFor_of_match fun h => hzero (by have := hnil.mp h; omega), Except.ok.injEq,
      heq]
    simp [hzero]

section Share

variable {plugin : DyeingOnlinePlugin} {app appVer appLan businessType : Bytes} {policy : Policy}
  (hselect : plugin.selectPolicy app appVer appLan businessType = some policy)

include hselect

theorem get_eq_answer (city : CityHash) (uid : Bytes) :
    plugin.get city uid app appVer appLan businessType =
      plugin.answer app appVer appLan businessType (bucket city uid policy) := by
  have same : bucket (fun _ _ => bucket city uid policy) [] policy = bucket city uid policy := by
    apply UInt64.toNat_inj.mp
    simp [bucket]
  simp only [DyeingOnlinePlugin.answer, DyeingOnlinePlugin.get, hselect, same]

theorem answer_eq_iff {b : Nat} (hb : b < 1000) {confId : Bytes} :
    plugin.answer app appVer appLan businessType (UInt64.ofNat b) =
      .ok (some (policy.idPrefix ++ confId)) ↔
      policy.confIdFor (UInt64.ofNat b) = .ok confId := by
  have same : bucket (fun _ _ => UInt64.ofNat b) [] policy = UInt64.ofNat b := by
    have value : (UInt64.ofNat b).toNat = b :=
      UInt64.toNat_ofNat_of_lt' (by simp [UInt64.size]; omega)
    apply UInt64.toNat_inj.mp
    rw [bucket, UInt64.toNat_mod, value]
    exact Nat.mod_eq_of_lt hb
  simp only [DyeingOnlinePlugin.answer, DyeingOnlinePlugin.get, hselect, same]
  cases policy.confIdFor (UInt64.ofNat b) with
  | error e => simp [bind, Except.bind]
  | ok c => simp [bind, Except.bind, pure, Except.pure]

theorem share_eq_count (doc : policy.Documented) {first : ConfIdInfo} {rest : List ConfIdInfo}
    (hinfos : policy.confIdInfos = first :: rest) {info : ConfIdInfo}
    (hinfo : info ∈ policy.confIdInfos) :
    plugin.share app appVer appLan businessType (policy.idPrefix ++ info.confId) =
      Nat.count (fun b => (b = 0 ∧ info = first) ∨
        (info.startId.toNat ≤ b ∧ b ≤ info.endId.toNat)) 1000 := by
  refine count_congr fun b hb => ?_
  rw [answer_eq_iff hselect hb, doc.confIdFor_eq_iff hb.le hinfos hinfo]

/-- The first segment has one bucket more than its range has numbers, unless it takes them all. -/
theorem share_first (doc : policy.Documented) {first : ConfIdInfo} {rest : List ConfIdInfo}
    (hinfos : policy.confIdInfos = first :: rest) :
    plugin.share app appVer appLan businessType (policy.idPrefix ++ first.confId) =
      min 1000 (first.endId.toNat + 1) := by
  have hmem : first ∈ policy.confIdInfos := by simp [hinfos]
  have hstart : first.startId.toNat = 1 := by
    have tiles := doc.tiles
    rw [hinfos] at tiles
    exact tiles.1
  rw [share_eq_count hselect doc hinfos hmem]
  refine (count_congr fun b _ => ?_).trans (count_range 0 _ _)
  simp only [and_true, hstart]
  omega

theorem share_later (doc : policy.Documented) {first : ConfIdInfo} {rest : List ConfIdInfo}
    (hinfos : policy.confIdInfos = first :: rest) {info : ConfIdInfo} (hinfo : info ∈ rest) :
    plugin.share app appVer appLan businessType (policy.idPrefix ++ info.confId) =
      min 1000 (info.endId.toNat + 1) - info.startId.toNat := by
  have hmem : info ∈ policy.confIdInfos := by simp [hinfos, hinfo]
  have hne : info ≠ first := by
    rintro rfl
    have distinct := doc.distinct
    rw [hinfos, List.map_cons, List.nodup_cons] at distinct
    exact distinct.1 (List.mem_map_of_mem hinfo)
  rw [share_eq_count hselect doc hinfos hmem]
  refine (count_congr fun b _ => ?_).trans (count_range _ _ _)
  simp [hne]

end Share

/-- Every user is answered by the bucket of his hash, and the buckets are shared out as configured
exactly when the first segment takes all of them. -/
theorem share_eq_configured_iff {plugin : DyeingOnlinePlugin}
    {app appVer appLan businessType : Bytes} {policy : Policy}
    (hselect : plugin.selectPolicy app appVer appLan businessType = some policy)
    (doc : policy.Documented) :
    (∀ city uid, bucket city uid policy < 1000 ∧
      plugin.get city uid app appVer appLan businessType =
        plugin.answer app appVer appLan businessType (bucket city uid policy)) ∧
    ((∀ info ∈ policy.confIdInfos,
      plugin.share app appVer appLan businessType (policy.idPrefix ++ info.confId) =
        info.endId.toNat + 1 - info.startId.toNat) ↔
      ∃ first ∈ policy.confIdInfos.head?, first.endId = 1000) := by
  refine ⟨fun city uid => ⟨UInt64.mod_lt _ (by decide), get_eq_answer hselect city uid⟩, ?_⟩
  have htiles := doc.tiles
  cases hinfos : policy.confIdInfos with
  | nil => simp [hinfos, Tiles] at htiles
  | cons first rest =>
    rw [hinfos] at htiles
    obtain ⟨hstart, -, htail⟩ := htiles
    have htop : first.endId = 1000 ↔ first.endId.toNat = 1000 := UInt32.toNat_inj.symm
    simp only [List.forall_mem_cons, List.head?_cons, Option.mem_some_iff, exists_eq_left']
    rw [share_first hselect doc hinfos, htop]
    have hbound := ((tiles_bounds doc.tiles).2 first (by simp [hinfos])).2.2
    constructor
    · rintro ⟨hfirst, -⟩
      omega
    · intro hall
      refine ⟨by omega, fun info hinfo => ?_⟩
      rw [share_later hselect doc hinfos hinfo]
      have := (tiles_bounds htail).2 info hinfo
      omega

def wholePolicy : Policy := ⟨0, str "w", [⟨str "64", 1, 1000⟩]⟩

def halvedPolicy : Policy := ⟨0, str "h", [⟨str "1", 1, 500⟩, ⟨str "2", 501, 1000⟩]⟩

def singlePolicy (policy : Policy) : DyeingOnlinePlugin :=
  ⟨str "/p", (∅ : UnorderedMap Bytes _).insert (str "t")
    ((∅ : UnorderedMap Bytes Policy).insert (str "default") policy)⟩

theorem singlePolicy_select (policy : Policy) :
    (singlePolicy policy).selectPolicy (str "a") [] [] (str "t") = some policy := by
  have product : DyeingOnlinePlugin.productId
      ((∅ : UnorderedMap Bytes Policy).insert (str "default") policy) (str "a") [] [] =
        str "default" := by
    have hne : str "a" ≠ str "default" := by decide
    simp [DyeingOnlinePlugin.productId, Finmap.mem_insert, hne, Finmap.notMem_empty]
  simp only [singlePolicy, DyeingOnlinePlugin.selectPolicy, Finmap.lookup_insert]
  rw [product, Finmap.lookup_insert]

theorem wholePolicy_documented : wholePolicy.Documented :=
  ⟨⟨by decide, by decide, rfl⟩, by decide, by decide⟩

theorem halvedPolicy_documented : halvedPolicy.Documented :=
  ⟨⟨by decide, by decide, by decide, by decide, rfl⟩, by decide, by decide⟩

theorem share_eq_configured_iff_whole :
    (singlePolicy wholePolicy).share (str "a") [] [] (str "t") (str "w64") = 1000 :=
  (share_eq_configured_iff (singlePolicy_select wholePolicy) wholePolicy_documented).2.mpr
    ⟨_, rfl, rfl⟩ ⟨str "64", 1, 1000⟩ (by decide)

/-- The first of two halves is given 501 buckets. -/
theorem share_ne_configured_halved :
    (singlePolicy halvedPolicy).selectPolicy (str "a") [] [] (str "t") = some halvedPolicy ∧
    halvedPolicy.Documented ∧
    ¬∀ info ∈ halvedPolicy.confIdInfos,
      (singlePolicy halvedPolicy).share (str "a") [] [] (str "t")
        (halvedPolicy.idPrefix ++ info.confId) = info.endId.toNat + 1 - info.startId.toNat := by
  refine ⟨singlePolicy_select halvedPolicy, halvedPolicy_documented, fun h => ?_⟩
  have hfirst := h ⟨str "1", 1, 500⟩ (by decide)
  rw [share_first (singlePolicy_select halvedPolicy) halvedPolicy_documented rfl] at hfirst
  exact absurd hfirst (by decide)

end ABDyeing
