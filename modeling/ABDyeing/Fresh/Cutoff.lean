import ABDyeing.Fresh.CurrentFresh

/-! The cutoff of `clear`.  It should lie a day before the clock's reading, and lies eight minutes
before it, as the product that should be a day of microseconds does not fit into 32 bits. -/

namespace ABDyeing

open Lib

namespace CurrentFresh

/-- A day in microseconds. -/
def day : UInt64 := 86400000000

/-- What the overflowed product leaves of a day. -/
def window : UInt64 := 500654080

/-- `clear` takes the entries from before the last day out of the index, and erases from the queue
only users of such entries. -/
structure KeepsDay (fresh : CurrentFresh) (now : UInt64) : Prop where
  index : ∀ entry, entry ∈ (fresh.clear now).timeKmsg.entries ↔
    entry ∈ fresh.timeKmsg.entries ∧ ¬entry.1 < now - day
  queue : ∀ uid ∈ fresh.kq, uid ∉ (fresh.clear now).kq →
    ∃ t, (t, uid) ∈ fresh.timeKmsg.entries ∧ (t, uid) ∉ (fresh.clear now).timeKmsg.entries

theorem clear_eq_clearBefore (now : UInt64) (fresh : CurrentFresh) :
    fresh.clear now = fresh.clearBefore (now - window) := rfl

theorem mem_clear_index {now : UInt64} {fresh : CurrentFresh} {entry : UInt64 × Bytes} :
    entry ∈ (fresh.clear now).timeKmsg.entries ↔
      entry ∈ fresh.timeKmsg.entries ∧ now - window ≤ entry.1 := by
  rw [clear_eq_clearBefore, mem_clearBefore_index]

/-- An erased user is one of an entry that the same call takes out of the index. -/
theorem erased_has_entry {now : UInt64} {fresh : CurrentFresh} {uid : Bytes} (hkq : uid ∈ fresh.kq)
    (herased : uid ∉ (fresh.clear now).kq) :
    ∃ t, (t, uid) ∈ fresh.timeKmsg.entries ∧ (t, uid) ∉ (fresh.clear now).timeKmsg.entries := by
  rw [clear_eq_clearBefore, mem_clearBefore_kq, not_and] at herased
  obtain ⟨t, hentry⟩ := not_forall.mp (herased hkq)
  obtain ⟨hmem, hbefore⟩ := Classical.not_imp.mp hentry
  exact ⟨t, hmem, fun kept => hbefore (mem_clear_index.mp kept).2⟩

theorem sub_day_le_sub_window {now : UInt64} (h : day ≤ now) : now - day ≤ now - window := by
  have hwindow : window ≤ now := le_trans (by decide) h
  rw [UInt64.le_iff_toNat_le, UInt64.toNat_sub_of_le _ _ h, UInt64.toNat_sub_of_le _ _ hwindow]
  exact Nat.sub_le_sub_left (by decide) _

/-- `clear` keeps exactly the last day if and only if the index has no entry of the last day that is
older than what the overflow leaves of it. -/
theorem keepsDay_iff (fresh : CurrentFresh) {now : UInt64} (h : day ≤ now) :
    fresh.KeepsDay now ↔
      ∀ entry ∈ fresh.timeKmsg.entries, ¬(now - day ≤ entry.1 ∧ entry.1 < now - window) := by
  constructor
  · intro keeps entry hmem ⟨hday, hbefore⟩
    have kept := (keeps.index entry).mpr ⟨hmem, not_lt.mpr hday⟩
    exact absurd (mem_clear_index.mp kept).2 (not_le.mpr hbefore)
  · intro none
    refine ⟨fun entry => ?_, fun uid hkq herased => erased_has_entry hkq herased⟩
    rw [mem_clear_index]
    refine and_congr_right fun hmem => ?_
    constructor
    · intro hle
      exact not_lt.mpr ((sub_day_le_sub_window h).trans hle)
    · intro hday
      by_contra hbefore
      exact none entry hmem ⟨not_lt.mp hday, not_le.mp hbefore⟩

theorem keepsDay_iff_example :
    ((empty.set 5 5 (str "u")).set 86400000005 86400000005 (str "v")).KeepsDay 86400000010 :=
  (keepsDay_iff _ (by decide)).mpr (by decide)

/-- A user announced ten minutes before the `clear` is forgotten with his entry. -/
theorem keepsDay_fails_example :
    ¬(empty.set 199400000000 199400000000 (str "u")).KeepsDay 200000000000 := by
  intro keeps
  have kept := (keeps.index (199400000000, str "u")).mpr (by decide)
  exact absurd kept (by decide)

end CurrentFresh

end ABDyeing
