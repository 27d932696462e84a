import ABDyeing.Lib.Bytes
import ABDyeing.Lib.OrderedMap
import ABDyeing.Lib.UnorderedMap

/-! `DyeingCurrentFresh`: the users that Kafka announced, with the times they were announced at.
`set` and `clear` are made of the sections that the code runs under one lock each, `setIndex`,
`setQueue`, `clearScan` and `clearErase`. -/

namespace ABDyeing

open Lib

structure CurrentFresh where
  kq : UnorderedMap Bytes UInt64
  timeKmsg : OrderedMap UInt64 Bytes

namespace CurrentFresh

def empty : CurrentFresh := ⟨∅, ∅⟩

/-- `_time_kmsg[TNOWUS] = uid`. -/
def setIndex (now : UInt64) (uid : Bytes) (fresh : CurrentFresh) : CurrentFresh :=
  { fresh with timeKmsg := fresh.timeKmsg.insert now uid }

/-- `_kmq->kq[uid] = TNOWUS`. -/
def setQueue (now : UInt64) (uid : Bytes) (fresh : CurrentFresh) : CurrentFresh :=
  { fresh with kq := fresh.kq.insert uid now }

/-- `set`, which reads the clock twice. -/
def set (t1 t2 : UInt64) (uid : Bytes) (fresh : CurrentFresh) : CurrentFresh :=
  setQueue t2 uid (setIndex t1 uid fresh)

/-- The entries of the index that the loop of `clear` meets before it breaks. -/
def scanned (cnow : UInt64) (fresh : CurrentFresh) : List (UInt64 × Bytes) :=
  fresh.timeKmsg.entries.takeWhile fun entry => decide (entry.1 < cnow)

def rubsh (cnow : UInt64) (fresh : CurrentFresh) : List Bytes :=
  (fresh.scanned cnow).map Prod.snd

/-- The scan of `clear`, which also takes what it met out of the index. -/
def clearScan (cnow : UInt64) (fresh : CurrentFresh) : CurrentFresh :=
  { fresh with timeKmsg := ((fresh.scanned cnow).map Prod.fst).foldl .erase fresh.timeKmsg }

def clearErase (fresh : CurrentFresh) (uid : Bytes) : CurrentFresh :=
  { fresh with kq := fresh.kq.erase uid }

def clearBefore (cnow : UInt64) (fresh : CurrentFresh) : CurrentFresh :=
  (fresh.rubsh cnow).foldl clearErase (fresh.clearScan cnow)

/-- `24*3600*1000*1000`, a product of 32-bit integers. -/
def retention : Int32 := 24 * 3600 * 1000 * 1000

def clear (now : UInt64) (fresh : CurrentFresh) : CurrentFresh :=
  fresh.clearBefore (now - retention.toInt64.toUInt64)

theorem mem_scanned {cnow : UInt64} {fresh : CurrentFresh} {entry : UInt64 × Bytes} :
    entry ∈ fresh.scanned cnow ↔ entry ∈ fresh.timeKmsg.entries ∧ entry.1 < cnow :=
  OrderedMap.mem_scan

theorem mem_rubsh {cnow : UInt64} {fresh : CurrentFresh} {uid : Bytes} :
    uid ∈ fresh.rubsh cnow ↔ ∃ t, (t, uid) ∈ fresh.timeKmsg.entries ∧ t < cnow := by
  rw [rubsh, List.mem_map]
  constructor
  · intro ⟨entry, hentry, huid⟩
    obtain ⟨hmem, hlt⟩ := mem_scanned.mp hentry
    exact ⟨entry.1, huid ▸ hmem, hlt⟩
  · intro ⟨t, hmem, hlt⟩
    exact ⟨(t, uid), mem_scanned.mpr ⟨hmem, hlt⟩, rfl⟩

@[simp] theorem clearScan_kq (cnow : UInt64) (fresh : CurrentFresh) :
    (fresh.clearScan cnow).kq = fresh.kq := rfl

@[simp] theorem mem_clearScan {cnow : UInt64} {fresh : CurrentFresh} {entry : UInt64 × Bytes} :
    entry ∈ (fresh.clearScan cnow).timeKmsg.entries ↔
      entry ∈ fresh.timeKmsg.entries ∧ cnow ≤ entry.1 := by
  rw [clearScan, OrderedMap.mem_eraseAll, List.mem_map]
  refine and_congr_right fun hmem => ?_
  constructor
  · intro kept
    by_contra hlt
    exact kept ⟨entry, mem_scanned.mpr ⟨hmem, not_le.mp hlt⟩, rfl⟩
  · intro hle ⟨other, hother, hkey⟩
    have hlt := (mem_scanned.mp hother).2
    rw [hkey] at hlt
    exact absurd hle (not_le.mpr hlt)

@[simp] theorem mem_clearErase {fresh : CurrentFresh} {uid v : Bytes} :
    v ∈ (fresh.clearErase uid).kq ↔ v ≠ uid ∧ v ∈ fresh.kq := Finmap.mem_erase

@[simp] theorem clearErase_timeKmsg (fresh : CurrentFresh) (uid : Bytes) :
    (fresh.clearErase uid).timeKmsg = fresh.timeKmsg := rfl

theorem foldl_clearErase_timeKmsg (uids : List Bytes) (fresh : CurrentFresh) :
    (uids.foldl clearErase fresh).timeKmsg = fresh.timeKmsg := by
  induction uids generalizing fresh with
  | nil => rfl
  | cons uid rest ih => rw [List.foldl_cons, ih, clearErase_timeKmsg]

theorem mem_foldl_clearErase {uids : List Bytes} {fresh : CurrentFresh} {v : Bytes} :
    v ∈ (uids.foldl clearErase fresh).kq ↔ v ∈ fresh.kq ∧ v ∉ uids := by
  induction uids generalizing fresh with
  | nil => simp
  | cons uid rest ih =>
    rw [List.foldl_cons, ih, mem_clearErase, List.mem_cons, not_or]
    constructor
    · intro ⟨⟨hne, hmem⟩, hrest⟩
      exact ⟨hmem, hne, hrest⟩
    · intro ⟨hmem, hne, hrest⟩
      exact ⟨⟨hne, hmem⟩, hrest⟩

@[simp] theorem mem_clearBefore_index {cnow : UInt64} {fresh : CurrentFresh}
    {entry : UInt64 × Bytes} :
    entry ∈ (fresh.clearBefore cnow).timeKmsg.entries ↔
      entry ∈ fresh.timeKmsg.entries ∧ cnow ≤ entry.1 := by
  rw [clearBefore, foldl_clearErase_timeKmsg, mem_clearScan]

@[simp] theorem mem_clearBefore_kq {cnow : UInt64} {fresh : CurrentFresh} {uid : Bytes} :
    uid ∈ (fresh.clearBefore cnow).kq ↔
      uid ∈ fresh.kq ∧ ∀ t, (t, uid) ∈ fresh.timeKmsg.entries → cnow ≤ t := by
  rw [clearBefore, mem_foldl_clearErase, clearScan_kq, mem_rubsh]
  simp only [not_exists, not_and, not_lt]

@[simp] theorem mem_set_index {t1 t2 : UInt64} {uid : Bytes} {fresh : CurrentFresh}
    {entry : UInt64 × Bytes} :
    entry ∈ (fresh.set t1 t2 uid).timeKmsg.entries ↔
      entry = (t1, uid) ∨ entry ∈ fresh.timeKmsg.entries ∧ entry.1 ≠ t1 :=
  OrderedMap.mem_insert

@[simp] theorem mem_set_kq {t1 t2 : UInt64} {uid v : Bytes} {fresh : CurrentFresh} :
    v ∈ (fresh.set t1 t2 uid).kq ↔ v = uid ∨ v ∈ fresh.kq := by
  simp [set, setQueue, setIndex]

end CurrentFresh

inductive FreshCall
  | set (uid : Bytes) (t1 t2 : UInt64)
  | clear (now : UInt64)
  deriving DecidableEq

def FreshCall.readings : FreshCall → List UInt64
  | .set _ t1 t2 => [t1, t2]
  | .clear now => [now]

/-- A call, where `clear` takes its cutoff `window` before its reading. -/
def CurrentFresh.call (window : UInt64) (fresh : CurrentFresh) : FreshCall → CurrentFresh
  | .set uid t1 t2 => fresh.set t1 t2 uid
  | .clear now => fresh.clearBefore (now - window)

/-- The window of the code is a product that has overflowed. -/
theorem CurrentFresh.clear_eq_call (now : UInt64) (fresh : CurrentFresh) :
    fresh.clear now = fresh.call 500654080 (.clear now) := rfl

end ABDyeing
