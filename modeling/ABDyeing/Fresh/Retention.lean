import ABDyeing.Fresh.CurrentFresh

/-! Which users a `clear` keeps.  A user announced again within the window should stay in the queue;
the scan collects him all the same where an older entry of his is still in the index. -/

namespace ABDyeing

open Lib

/-- Which of its two clock readings a `set` counts as made at. -/
inductive Reading
  | index
  | queue

def Reading.pick : Reading → UInt64 → UInt64 → UInt64
  | .index, t1, _ => t1
  | .queue, _, t2 => t2

def FreshCall.sets (reading : Reading) (uid : Bytes) : FreshCall → Option UInt64
  | .set v t1 t2 => if v = uid then some (reading.pick t1 t2) else none
  | .clear _ => none

def lastSet (reading : Reading) (uid : Bytes) (calls : List FreshCall) : Option UInt64 :=
  (calls.filterMap (FreshCall.sets reading uid)).getLast?

/-- The clock goes forward from reading to reading, and a window has passed at every `clear`. -/
structure Timed (window : UInt64) (calls : List FreshCall) : Prop where
  increasing : (calls.flatMap FreshCall.readings).Pairwise (· < ·)
  passed : ∀ now, .clear now ∈ calls → window ≤ now

def AtClears (P : List FreshCall → UInt64 → Prop) (calls : List FreshCall) : Prop :=
  ∀ before now after, calls = before ++ .clear now :: after → P before now

section Runs

variable (window : UInt64) (reading : Reading) (fresh : CurrentFresh)

def runCalls (calls : List FreshCall) : CurrentFresh :=
  calls.foldl (CurrentFresh.call window) fresh

/-- After the `clear` at `now`, the queue has every user set within the window. -/
def RecentKept (before : List FreshCall) (now : UInt64) : Prop :=
  ∀ uid t, lastSet reading uid before = some t → now - window ≤ t →
    uid ∈ (runCalls window fresh (before ++ [.clear now])).kq

/-- At the `clear` at `now`, no user set within the window has an entry from before it. -/
def NoOlderEntry (before : List FreshCall) (now : UInt64) : Prop :=
  ∀ uid t, lastSet reading uid before = some t → now - window ≤ t →
    ∀ entry ∈ (runCalls window fresh before).timeKmsg.entries, entry.2 = uid →
      now - window ≤ entry.1

end Runs

variable {window : UInt64} {reading : Reading} {fresh : CurrentFresh}

theorem runCalls_snoc (calls : List FreshCall) (call : FreshCall) :
    runCalls window fresh (calls ++ [call]) = (runCalls window fresh calls).call window call := by
  simp [runCalls]

theorem lastSet_snoc (calls : List FreshCall) (call : FreshCall) (uid : Bytes) :
    lastSet reading uid (calls ++ [call]) =
      (call.sets reading uid).or (lastSet reading uid calls) := by
  rw [lastSet, List.filterMap_append, List.filterMap_cons]
  cases call.sets reading uid <;> simp [lastSet]

theorem AtClears.of_snoc {P : List FreshCall → UInt64 → Prop} {calls : List FreshCall}
    {call : FreshCall} (h : AtClears P (calls ++ [call])) : AtClears P calls := by
  intro before now after hcalls
  exact h before now (after ++ [call]) (by simp [hcalls])

/-- As long as no `clear` finds an older entry, a user leaves the queue only where his last `set`
lies before the window. -/
theorem kept_or_passed {calls : List FreshCall}
    (cond : AtClears (NoOlderEntry window reading fresh) calls) {uid : Bytes} {t : UInt64}
    (hlast : lastSet reading uid calls = some t) :
    uid ∈ (runCalls window fresh calls).kq ∨ ∃ now, .clear now ∈ calls ∧ t < now - window := by
  induction calls using List.reverseRecOn with
  | nil => simp [lastSet] at hlast
  | append_singleton calls call ih =>
    rw [lastSet_snoc] at hlast
    rw [runCalls_snoc]
    cases call with
    | set v t1 t2 =>
      by_cases hv : uid = v
      · exact .inl (by simp [CurrentFresh.call, hv])
      · rw [FreshCall.sets, if_neg (Ne.symm hv), Option.none_or] at hlast
        rcases ih cond.of_snoc hlast with hkq | ⟨now, hmem, hlt⟩
        · exact .inl (by simp [CurrentFresh.call, hkq])
        · exact .inr ⟨now, by simp [hmem], hlt⟩
    | clear now =>
      rw [FreshCall.sets, Option.none_or] at hlast
      rcases ih cond.of_snoc hlast with hkq | ⟨earlier, hmem, hlt⟩
      · by_cases hrecent : now - window ≤ t
        · refine .inl (CurrentFresh.mem_clearBefore_kq.mpr ⟨hkq, fun t' hentry => ?_⟩)
          exact cond calls now [] rfl uid t hlast hrecent _ hentry rfl
        · exact .inr ⟨now, by simp, not_le.mp hrecent⟩
      · exact .inr ⟨earlier, by simp [hmem], hlt⟩

theorem sub_le_sub_window {a b : UInt64} (ha : window ≤ a) (hab : a < b) :
    a - window ≤ b - window := by
  have hb : window ≤ b := ha.trans hab.le
  rw [UInt64.le_iff_toNat_le] at *
  rw [UInt64.lt_iff_toNat_lt] at hab
  rw [UInt64.toNat_sub_of_le _ _ (UInt64.le_iff_toNat_le.mpr ha),
    UInt64.toNat_sub_of_le _ _ (UInt64.le_iff_toNat_le.mpr hb)]
  omega

/-- From any state and under a clock that goes forward, every `clear` keeps the users set within the
window if and only if none of them has an older entry in the index at a `clear`. -/
theorem recentKept_iff {calls : List FreshCall} (timed : Timed window calls) :
    AtClears (RecentKept window reading fresh) calls ↔
      AtClears (NoOlderEntry window reading fresh) calls := by
  constructor
  · intro kept before now after hcalls uid t hlast hrecent entry hentry huid
    have hkq := kept before now after hcalls uid t hlast hrecent
    rw [runCalls_snoc] at hkq
    exact (CurrentFresh.mem_clearBefore_kq.mp hkq).2 entry.1 (huid ▸ hentry)
  · intro cond before now after hcalls uid t hlast hrecent
    have earlierCond : AtClears (NoOlderEntry window reading fresh) before := by
      intro b n a h
      exact cond b n (a ++ .clear now :: after) (by simp [hcalls, h])
    rw [runCalls_snoc]
    refine CurrentFresh.mem_clearBefore_kq.mpr ⟨?_, fun t' hentry => ?_⟩
    · apply (kept_or_passed earlierCond hlast).resolve_right
      intro ⟨earlier, hmem, hlt⟩
      have hpassed := timed.passed earlier (by simp [hcalls, hmem])
      have hbefore : earlier < now := by
        have increasing := timed.increasing
        rw [hcalls, List.flatMap_append, List.pairwise_append] at increasing
        exact increasing.2.2 earlier (List.mem_flatMap.mpr ⟨_, hmem, by simp [FreshCall.readings]⟩)
          now (by simp [FreshCall.readings])
      exact absurd (hlt.trans_le (sub_le_sub_window hpassed hbefore)) (not_lt.mpr hrecent)
    · exact cond before now after hcalls uid t hlast hrecent _ hentry rfl

theorem recentKept_iff_example :
    AtClears (RecentKept 10 .index .empty) [.set (str "u") 11 12, .clear 20] := by
  refine (recentKept_iff ⟨by decide, fun now hnow => ?_⟩).mpr ?_
  · simp only [List.mem_cons, reduceCtorEq, FreshCall.clear.injEq, List.not_mem_nil, or_false,
      false_or] at hnow
    subst hnow
    decide
  · intro before now after hcalls
    rcases before with _ | ⟨_, _ | ⟨_, _⟩⟩ <;> simp at hcalls
    obtain ⟨rfl, rfl, rfl⟩ := hcalls
    intro uid t _ _ entry hentry _
    have hindex : entry ∈ [((11 : UInt64), str "u")] := hentry
    rw [List.mem_singleton.mp hindex]
    decide

/-- A user announced at 1 and again at 100 is forgotten by a `clear` that keeps from 50 on. -/
theorem recentKept_fails_example :
    Timed 60 [.set (str "u") 1 2, .set (str "u") 100 101, .clear 110] ∧
    ¬AtClears (RecentKept 60 .index .empty)
      [.set (str "u") 1 2, .set (str "u") 100 101, .clear 110] := by
  constructor
  · refine ⟨by decide, fun now hnow => ?_⟩
    simp only [List.mem_cons, reduceCtorEq, FreshCall.clear.injEq, List.not_mem_nil, or_false,
      false_or] at hnow
    subst hnow
    decide
  · intro h
    have hkq := h [.set (str "u") 1 2, .set (str "u") 100 101] 110 [] rfl (str "u") 100 rfl
      (by decide)
    exact absurd hkq (by decide)

end ABDyeing
