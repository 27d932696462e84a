import ABDyeing.Fresh.CurrentFresh

/-! One `set` and one `clear` on two threads.  Each section runs under its lock, so the threads
interleave between sections only; `clear` erases in later sections what it collected in its scan. -/

namespace ABDyeing

open Lib

inductive SetPoint
  | index
  | queue
  | finished

/-- What the thread in `clear` has left to do: the scan, or the erases of what it collected. -/
inductive ClearPoint
  | scan
  | erase (rubsh : List Bytes)

structure Threads where
  fresh : CurrentFresh
  setter : SetPoint
  cleaner : ClearPoint

inductive Section
  | setIndex
  | setQueue
  | clearScan
  | clearErase
  deriving DecidableEq

structure Calls where
  uid : Bytes
  t1 : UInt64
  t2 : UInt64
  cnow : UInt64

namespace Threads

def start (fresh : CurrentFresh) : Threads := ⟨fresh, .index, .scan⟩

/-- One section, where it is the next one of its thread. -/
def step (calls : Calls) (threads : Threads) (sect : Section) : Option Threads :=
  match sect, threads.setter, threads.cleaner with
  | .setIndex, .index, cleaner =>
    some ⟨threads.fresh.setIndex calls.t1 calls.uid, .queue, cleaner⟩
  | .setQueue, .queue, cleaner =>
    some ⟨threads.fresh.setQueue calls.t2 calls.uid, .finished, cleaner⟩
  | .clearScan, setter, .scan =>
    some ⟨threads.fresh.clearScan calls.cnow, setter, .erase (threads.fresh.rubsh calls.cnow)⟩
  | .clearErase, setter, .erase (uid :: rest) =>
    some ⟨threads.fresh.clearErase uid, setter, .erase rest⟩
  | _, _, _ => none

def run (calls : Calls) : Threads → List Section → Option Threads :=
  List.foldlM (step calls)

def Finished (threads : Threads) : Prop :=
  threads.setter = .finished ∧ threads.cleaner = .erase []

end Threads

/-- How many erases a schedule makes before the write to the queue. -/
def erasesBefore (schedule : List Section) : Nat :=
  (schedule.takeWhile (· ≠ .setQueue)).count .clearErase

namespace Threads

variable {calls : Calls} {threads next final : Threads}

theorem step_cases {sect : Section} (h : threads.step calls sect = some next) :
    (sect = .setIndex ∧ threads.setter = .index ∧
      next = ⟨threads.fresh.setIndex calls.t1 calls.uid, .queue, threads.cleaner⟩) ∨
    (sect = .setQueue ∧ threads.setter = .queue ∧
      next = ⟨threads.fresh.setQueue calls.t2 calls.uid, .finished, threads.cleaner⟩) ∨
    (sect = .clearScan ∧ threads.cleaner = .scan ∧
      next = ⟨threads.fresh.clearScan calls.cnow, threads.setter,
        .erase (threads.fresh.rubsh calls.cnow)⟩) ∨
    (∃ uid rest, sect = .clearErase ∧ threads.cleaner = .erase (uid :: rest) ∧
      next = ⟨threads.fresh.clearErase uid, threads.setter, .erase rest⟩) := by
  unfold step at h
  split at h
  · rename_i hsetter
    exact .inl ⟨rfl, hsetter, (Option.some.inj h).symm⟩
  · rename_i hsetter
    exact .inr (.inl ⟨rfl, hsetter, (Option.some.inj h).symm⟩)
  · rename_i hcleaner
    exact .inr (.inr (.inl ⟨rfl, hcleaner, (Option.some.inj h).symm⟩))
  · rename_i uid rest hcleaner
    exact .inr (.inr (.inr ⟨uid, rest, rfl, hcleaner, (Option.some.inj h).symm⟩))
  · cases h

theorem run_cons {sect : Section} {schedule : List Section} :
    run calls threads (sect :: schedule) = some final ↔
      ∃ next, threads.step calls sect = some next ∧ run calls next schedule = some final := by
  simp [run, List.foldlM_cons, Option.bind_eq_some_iff]

/-- Alone, the sections of `set` make the call. -/
theorem run_set (fresh : CurrentFresh) (cleaner : ClearPoint) :
    run calls ⟨fresh, .index, cleaner⟩ [.setIndex, .setQueue] =
      some ⟨fresh.set calls.t1 calls.t2 calls.uid, .finished, cleaner⟩ := by
  cases cleaner <;> rfl

theorem run_erases (fresh : CurrentFresh) (setter : SetPoint) (rubsh : List Bytes) :
    run calls ⟨fresh, setter, .erase rubsh⟩ (List.replicate rubsh.length .clearErase) =
      some ⟨rubsh.foldl CurrentFresh.clearErase fresh, setter, .erase []⟩ := by
  induction rubsh generalizing fresh with
  | nil => rfl
  | cons uid rest ih =>
    rw [List.length_cons, List.replicate_succ, run_cons]
    refine ⟨⟨fresh.clearErase uid, setter, .erase rest⟩, ?_, ih (fresh.clearErase uid)⟩
    cases setter <;> rfl

/-- Alone, the sections of `clear` make the call. -/
theorem run_clear (fresh : CurrentFresh) (setter : SetPoint) :
    run calls ⟨fresh, setter, .scan⟩
        (.clearScan :: List.replicate (fresh.rubsh calls.cnow).length .clearErase) =
      some ⟨fresh.clearBefore calls.cnow, setter, .erase []⟩ := by
  rw [run_cons]
  refine ⟨⟨fresh.clearScan calls.cnow, setter, .erase (fresh.rubsh calls.cnow)⟩, ?_,
    run_erases _ setter _⟩
  cases setter <;> rfl

theorem mem_queue_of_set {schedule : List Section} {rest : List Bytes}
    (hrun : run calls threads schedule = some final) (hfinal : final.Finished)
    (hsetter : threads.setter = .finished) (hcleaner : threads.cleaner = .erase rest) :
    calls.uid ∈ final.fresh.kq ↔ calls.uid ∈ threads.fresh.kq ∧ calls.uid ∉ rest := by
  induction schedule generalizing threads rest with
  | nil =>
    obtain rfl : threads = final := Option.some.inj hrun
    have hrest := hcleaner.symm.trans hfinal.2
    simp only [ClearPoint.erase.injEq] at hrest
    simp [hrest]
  | cons sect schedule ih =>
    obtain ⟨next, hstep, hrun⟩ := run_cons.mp hrun
    rcases step_cases hstep with ⟨-, h, -⟩ | ⟨-, h, -⟩ | ⟨-, h, -⟩ | ⟨uid, left, -, h, rfl⟩
    · simp [hsetter] at h
    · simp [hsetter] at h
    · simp [hcleaner] at h
    · simp only [hcleaner, ClearPoint.erase.injEq] at h
      subst h
      rw [ih hrun hsetter rfl, CurrentFresh.mem_clearErase, List.mem_cons, not_or]
      constructor
      · intro ⟨⟨hne, hmem⟩, hleft⟩
        exact ⟨hmem, hne, hleft⟩
      · intro ⟨hmem, hne, hleft⟩
        exact ⟨⟨hne, hmem⟩, hleft⟩

/-- Before the write to the queue, the erases made until then no longer count. -/
theorem mem_queue_of_scan {schedule : List Section} {rest : List Bytes}
    (hrun : run calls threads schedule = some final) (hfinal : final.Finished)
    (hsetter : threads.setter ≠ .finished) (hcleaner : threads.cleaner = .erase rest) :
    calls.uid ∈ final.fresh.kq ↔ calls.uid ∉ rest.drop (erasesBefore schedule) := by
  induction schedule generalizing threads rest with
  | nil =>
    obtain rfl : threads = final := Option.some.inj hrun
    exact absurd hfinal.1 hsetter
  | cons sect schedule ih =>
    obtain ⟨next, hstep, hrun⟩ := run_cons.mp hrun
    rcases step_cases hstep with ⟨rfl, h, rfl⟩ | ⟨rfl, h, rfl⟩ | ⟨rfl, h, rfl⟩ |
      ⟨uid, left, rfl, h, rfl⟩
    · rw [ih hrun (by simp) hcleaner]
      simp [erasesBefore]
    · rw [mem_queue_of_set hrun hfinal rfl hcleaner]
      simp [erasesBefore, CurrentFresh.setQueue]
    · simp [hcleaner] at h
    · simp only [hcleaner, ClearPoint.erase.injEq] at h
      subst h
      rw [ih hrun hsetter rfl]
      simp [erasesBefore]

/-- When both calls have returned and the index was written after the scan, the user is in the queue
if and only if no erase of his comes after the write to the queue. -/
theorem mem_queue_iff {fresh : CurrentFresh} {schedule : List Section}
    (hrun : run calls (start fresh) schedule = some final) (hfinal : final.Finished)
    (order : schedule.idxOf .clearScan < schedule.idxOf .setIndex) :
    calls.uid ∈ final.fresh.kq ↔
      calls.uid ∉ (fresh.rubsh calls.cnow).drop (erasesBefore schedule) := by
  cases schedule with
  | nil => simp at order
  | cons sect schedule =>
    obtain ⟨next, hstep, hrun⟩ := run_cons.mp hrun
    rcases step_cases hstep with ⟨rfl, -, -⟩ | ⟨-, h, -⟩ | ⟨rfl, -, rfl⟩ | ⟨uid, left, -, h, -⟩
    · simp at order
    · simp [start] at h
    · rw [mem_queue_of_scan hrun hfinal (by simp [start]) rfl]
      simp [erasesBefore, start]
    · simp [start] at h

def announcedTwice : Calls := ⟨str "u", 100, 101, 50⟩

def announcedOnce : CurrentFresh := CurrentFresh.empty.set 1 2 (str "u")

theorem mem_queue_iff_example :
    ∃ final, run announcedTwice (start announcedOnce)
        [.clearScan, .setIndex, .clearErase, .setQueue] = some final ∧ final.Finished ∧
      announcedTwice.uid ∈ final.fresh.kq := by
  refine ⟨_, rfl, ⟨rfl, rfl⟩, ?_⟩
  have hrun : run announcedTwice (start announcedOnce)
      [.clearScan, .setIndex, .clearErase, .setQueue] = some _ := rfl
  exact (mem_queue_iff hrun ⟨rfl, rfl⟩ (by decide)).mpr (by decide)

/-- The erase comes after it, and the user is lost. -/
theorem mem_queue_fails_example :
    ∃ final, run announcedTwice (start announcedOnce)
        [.clearScan, .setIndex, .setQueue, .clearErase] = some final ∧ final.Finished ∧
      announcedTwice.uid ∉ final.fresh.kq :=
  ⟨_, rfl, ⟨rfl, rfl⟩, by decide⟩

end Threads

end ABDyeing
