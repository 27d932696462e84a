import ABDyeing.FlushPolicy

/-! The thread that runs `flushPolicy` every minute, when a read of the configuration store throws.
Nothing between the read and `threadEntry` catches the exception, and `threadEntry` throws it again,
out of the thread, which ends the process. -/

namespace ABDyeing

open Lib

/-- The `Thread` that the handler owns, and the exception that has left it. -/
structure Thread where
  running : Bool
  owner : ABDyeingHandler
  rethrown : Option (Abort Exception)

namespace Thread

variable (store : Store)

/-- `run` through this many rounds of its loop, from the read with the number `n` on. -/
def run : Nat → ABDyeingHandler → Nat → Flushed
  | 0, owner, n => (owner, .ok n)
  | rounds + 1, owner, n => (owner.flushPolicy store n).andThen (run rounds)

/-- `INV_Thread::threadEntry`, after this many rounds of `run`. -/
def threadEntry (rounds : Nat) (owner : ABDyeingHandler) (n : Nat) : Thread :=
  match run store rounds owner n with
  | (owner, .ok _) => ⟨true, owner, none⟩
  | (owner, .error e) => ⟨false, owner, some e⟩

theorem threadEntry_of_error {owner after : ABDyeingHandler} {n : Nat} {e : Abort Exception}
    (h : owner.flushPolicy store n = (after, .error e)) (rounds : Nat) :
    threadEntry store (rounds + 1) owner n = ⟨false, after, some e⟩ := by
  rw [threadEntry, run, h, Flushed.andThen_error]

end Thread

namespace ABDyeingHandler

variable {node : Bytes → Bytes} {store : Store}

/-- The number of reads that a flush makes where none of them fails. -/
def policyReads (node : Bytes → Bytes) (handler : ABDyeingHandler) : Nat :=
  1 + (handler.whiteTypes node).length + 1 + (handler.onlineTypes node).length

/-- The flush leaves both plugins as they were, and the thread that runs it goes on. -/
structure Atomic (store : Store) (handler : ABDyeingHandler) (n : Nat) : Prop where
  whiteList : (handler.flushPolicy store n).1.whiteList = handler.whiteList
  onlinePlugin : (handler.flushPolicy store n).1.onlinePlugin = handler.onlinePlugin
  survives : (Thread.threadEntry store 1 handler n).running = true

theorem flushPolicy_fails_early {k : Nat} (failsAt : store.FailsAt node k)
    (handler : ABDyeingHandler) {n : Nat} (hle : n ≤ k)
    (hlt : k < n + 1 + (handler.whiteTypes node).length) :
    ∃ e, handler.flushPolicy store n = (handler, .error (.exception e)) := by
  obtain ⟨e, he⟩ := DyeingWhiteListPlugin.loadConfig_fails failsAt handler.whitePrefix
    handler.types hle hlt
  exact ⟨e, by rw [flushPolicy, flushWhiteList, he, publishIf_error, Flushed.andThen_error]⟩

/-- Once the white list is read it is published, whatever becomes of the online plugin. -/
theorem flushPolicy_fails_late {k : Nat} (failsAt : store.FailsAt node k)
    (handler : ABDyeingHandler) {n : Nat} (hle : n + 1 + (handler.whiteTypes node).length ≤ k)
    (hlt : k < n + handler.policyReads node) :
    ∃ e, handler.flushPolicy store n =
      ({ handler with whiteList := handler.nextWhiteList node }, .error (.exception e)) := by
  unfold policyReads at hlt
  obtain ⟨e, he⟩ := DyeingOnlinePlugin.loadConfig_fails failsAt handler.onlinePrefix
    handler.types hle (by unfold onlineTypes at hlt; omega)
  refine ⟨e, ?_⟩
  rw [flushPolicy, flushWhiteList_before failsAt.before handler hle, Flushed.andThen_ok,
    flushOnline]
  simp only [he, publishIf_error]

/-- Wherever the failing read stands, the flush is not atomic: the exception leaves the thread, and
with it the process ends.  Until then the online plugin is always kept, and the white list where the
read stands in its own half. -/
theorem flushPolicy_never_atomic {k : Nat} (failsAt : store.FailsAt node k)
    (handler : ABDyeingHandler) {n : Nat} (hle : n ≤ k) (hlt : k < n + handler.policyReads node) :
    ¬handler.Atomic store n ∧
      (handler.flushPolicy store n).1 =
        (if k < n + 1 + (handler.whiteTypes node).length then handler
          else { handler with whiteList := handler.nextWhiteList node }) ∧
      ∃ e, ∀ rounds, Thread.threadEntry store (rounds + 1) handler n =
        ⟨false, (handler.flushPolicy store n).1, some (.exception e)⟩ := by
  have result : ∃ e, handler.flushPolicy store n =
      (if k < n + 1 + (handler.whiteTypes node).length then handler
        else { handler with whiteList := handler.nextWhiteList node }, .error (.exception e)) := by
    by_cases early : k < n + 1 + (handler.whiteTypes node).length
    · simp only [if_pos early]
      exact flushPolicy_fails_early failsAt handler hle early
    · simp only [if_neg early]
      exact flushPolicy_fails_late failsAt handler (not_lt.mp early) hlt
  obtain ⟨e, he⟩ := result
  refine ⟨fun atomic => ?_, by rw [he], e, fun rounds => ?_⟩
  · have ended := atomic.survives
    rw [Thread.threadEntry_of_error store he 0] at ended
    cases ended
  · rw [Thread.threadEntry_of_error store he rounds, he]

/-- A store that answers with `node`, except to the read with the number `k`. -/
def failingAt (node : Bytes → Bytes) (k : Nat) : Store := fun n path =>
  if n = k then .err 1 else .ok (node path)

theorem failingAt_failsAt (node : Bytes → Bytes) (k : Nat) : (failingAt node k).FailsAt node k where
  before i hi path := by simp only [failingAt, qconfGet, if_neg hi.ne]
  fails _ := ⟨1, if_pos rfl⟩

theorem flushPolicy_never_atomic_example :
    ¬(blank [str "t"]).Atomic (failingAt typeNode 1) 0 :=
  (flushPolicy_never_atomic (failingAt_failsAt typeNode 1) (blank [str "t"]) (Nat.zero_le 1)
    (by decide)).1

/-- The third read, the first one for the online plugin, fails: a white list has been published when
the exception leaves the thread. -/
theorem flushPolicy_not_atomic_late :
    let handler := blank [str "t"]
    let store := failingAt typeNode 2
    ¬handler.Atomic store 0 ∧ (handler.flushPolicy store 0).1.whiteList.isSome ∧
      (Thread.threadEntry store 1 handler 0).running = false := by
  intro handler store
  obtain ⟨e, he⟩ := flushPolicy_fails_late (failingAt_failsAt typeNode 2) handler (n := 0)
    (by decide) (by decide)
  have ended := Thread.threadEntry_of_error store he 0
  refine ⟨fun atomic => ?_, by rw [he]; rfl, by rw [ended]⟩
  have running := atomic.survives
  rw [ended] at running
  cases running

end ABDyeingHandler

end ABDyeing
