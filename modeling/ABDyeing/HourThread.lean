import Mathlib.Data.List.Chain
import ABDyeing.FlushFreshUser
import ABDyeing.Fresh.CurrentFresh

/-! The two threads that refresh something once a day, `ClearThread` and `FreshThread`.  Their loops
compare the configured hour with the hour of the clock, in which they refresh if they are armed, and
with the hour after it, in which they arm themselves. -/

namespace ABDyeing

open Lib

/-- `getAbTimeOfHour`, by the hour that `localtime` gives. -/
def getAbTimeOfHour (now : Bool) (tmHour : Nat) : Bytes :=
  if now then decimal tmHour
  else
    let cleanHour := if tmHour = 23 then 0 else tmHour + 1
    decimal cleanHour

/-- What a round of the loop meets: the hour that each of its two tests reads, and what the refresh
works on. -/
structure HourTick (ε : Type) where
  tmHour : Nat
  tmHourAgain : Nat
  env : ε

/-- What `ClearThread` and `FreshThread` have in common. -/
structure HourThread (ω : Type) where
  owner : ω
  freshHour : Bytes
  freshTags : Bool

namespace HourThread

variable {ε ω : Type}

def new (owner : ω) (freshHour : Bytes) : HourThread ω := ⟨owner, freshHour, true⟩

variable (refresh : ε → ω → Outcome Exception ω)

/-- The first test, and whether it called the refresh. -/
def refreshIf (tick : HourTick ε) (thread : HourThread ω) :
    Outcome Exception (Bool × HourThread ω) :=
  if thread.freshHour = getAbTimeOfHour true tick.tmHour ∧ thread.freshTags then do
    let owner ← refresh tick.env thread.owner
    return (true, { thread with owner := owner, freshTags := false })
  else return (false, thread)

/-- The second test. -/
def armIf (tmHour : Nat) (thread : HourThread ω) : HourThread ω :=
  if thread.freshHour = getAbTimeOfHour false tmHour then { thread with freshTags := true }
  else thread

def round (tick : HourTick ε) (thread : HourThread ω) :
    Outcome Exception (Bool × HourThread ω) := do
  let (called, thread) ← thread.refreshIf refresh tick
  return (called, thread.armIf tick.tmHourAgain)

/-- The loop of `run`, over its rounds: which of them called the refresh. -/
def run : List (HourTick ε) → HourThread ω → Outcome Exception (List Bool × HourThread ω)
  | [], thread => .ok ([], thread)
  | tick :: ticks, thread => do
    let (called, thread) ← thread.round refresh tick
    let (calls, thread) ← run ticks thread
    return (called :: calls, thread)

/-- What the refreshes work on that these rounds called. -/
def refreshedWith (ticks : List (HourTick ε)) (calls : List Bool) : List ε :=
  (ticks.zip calls).flatMap fun (tick, called) => if called then [tick.env] else []

end HourThread

abbrev ClearThread := HourThread CurrentFresh

/-- `ClearThread::run`; a refresh reads the clock. -/
def ClearThread.run (ticks : List (HourTick UInt64)) (thread : ClearThread) :
    Outcome Exception (List Bool × ClearThread) :=
  HourThread.run (fun now owner => .ok (owner.clear now)) ticks thread

/-- What the servers and the clock answer to a flush. -/
structure FlushEnv where
  store : Store
  freshClient : MysqlClient
  pushClient : MysqlClient
  time : Int64
  clock : Nat → UInt64

/-- The owner stands with the reads that it has made of the store. -/
structure FreshThread extends HourThread (ABDyeingHandler × Nat) where
  initMysql : Bool

namespace FreshThread

def new (owner : ABDyeingHandler × Nat) (freshHour : Bytes) : FreshThread :=
  ⟨.new owner freshHour, false⟩

def flush (env : FlushEnv) (owner : ABDyeingHandler × Nat) :
    Outcome Exception (ABDyeingHandler × Nat) :=
  match owner.1.flushFreshUserPolicy env.store env.freshClient env.pushClient env.time env.clock
    owner.2 with
  | (handler, .ok n) => .ok (handler, n)
  | (_, .error e) => .error e

/-- `if (!_init_mysql)`, and whether it called the refresh. -/
def init (initial : FlushEnv) (thread : FreshThread) : Outcome Exception (Bool × FreshThread) :=
  if thread.initMysql then return (false, thread)
  else do
    let owner ← flush initial thread.owner
    return (true, { thread with owner := owner, initMysql := true })

/-- A round, and whether it called the refresh on entry and for the hour. -/
def round (initial : FlushEnv) (tick : HourTick FlushEnv) (thread : FreshThread) :
    Outcome Exception ((Bool × Bool) × FreshThread) := do
  let (entered, thread) ← thread.init initial
  let (called, base) ← thread.toHourThread.round flush tick
  return ((entered, called), { thread with toHourThread := base })

/-- `FreshThread::run`, over its rounds. -/
def run (initial : FlushEnv) :
    List (HourTick FlushEnv) → FreshThread → Outcome Exception (List (Bool × Bool) × FreshThread)
  | [], thread => .ok ([], thread)
  | tick :: ticks, thread => do
    let (calls, thread) ← thread.round initial tick
    let (rest, thread) ← run initial ticks thread
    return (calls :: rest, thread)

/-- What the flushes work on that these rounds called, on entry and for the hour. -/
def flushedWith (initial : FlushEnv) (ticks : List (HourTick FlushEnv))
    (rounds : List (Bool × Bool)) : List FlushEnv :=
  (ticks.zip rounds).flatMap fun (tick, entered, called) =>
    (if entered then [initial] else []) ++ if called then [tick.env] else []

end FreshThread

/-- The hour of a round is the hour of the round before it or the next one. -/
def NextHour (p q : Nat) : Prop := q = p ∨ q = (p + 1) % 24

instance (p q : Nat) : Decidable (NextHour p q) := inferInstanceAs (Decidable (_ ∨ _))

section Rounds

variable {ε : Type}

def hours (ticks : List (HourTick ε)) : List Nat := ticks.map HourTick.tmHour

/-- The hours of the rounds follow the clock, and the two tests of a round read the same hour. -/
structure Daily (ticks : List (HourTick ε)) : Prop where
  range : ∀ tick ∈ ticks, tick.tmHour < 24
  same : ∀ tick ∈ ticks, tick.tmHourAgain = tick.tmHour
  follow : (hours ticks).IsChain NextHour

/-- In every block of rounds in the hour `h` the first one calls the refresh and the others do not,
and no round of another hour does. -/
structure OncePerBlock (h : Nat) (hours : List Nat) (calls : List Bool) : Prop where
  length : calls.length = hours.length
  block : ∀ before n after, hours = before ++ List.replicate (n + 1) h ++ after →
    before.getLast? ≠ some h → after.head? ≠ some h →
    (calls.drop before.length).take (n + 1) = true :: List.replicate n false
  outside : ∀ i : Nat, hours[i]? ≠ some h → calls[i]? ≠ some true

/-- Which of the rounds at these hours are the first ones of a block in the hour `h`, where `last`
is the hour of the round before them. -/
def firsts (h : Nat) : Option Nat → List Nat → List Bool
  | _, [] => []
  | last, q :: rest => decide (q = h ∧ last ≠ some h) :: firsts h (some q) rest

theorem length_firsts (h : Nat) (last : Option Nat) (hours : List Nat) :
    (firsts h last hours).length = hours.length := by
  induction hours generalizing last with
  | nil => rfl
  | cons q rest ih => rw [firsts, List.length_cons, ih, List.length_cons]

theorem firsts_append (h : Nat) (last : Option Nat) (before after : List Nat) :
    firsts h last (before ++ after) =
      firsts h last before ++ firsts h (before.getLast?.or last) after := by
  induction before generalizing last with
  | nil => rfl
  | cons q rest ih =>
    rw [List.cons_append, firsts, firsts, ih, List.cons_append, List.getLast?_cons]
    cases rest.getLast? <;> rfl

/-- A block is gone on with. -/
theorem firsts_replicate (h n : Nat) :
    firsts h (some h) (List.replicate n h) = List.replicate n false := by
  induction n with
  | zero => rfl
  | succ n ih => rw [List.replicate_succ, firsts, ih, List.replicate_succ]; simp

theorem firsts_of_ne {h : Nat} {last : Option Nat} {hours : List Nat} {i : Nat}
    (other : hours[i]? ≠ some h) : (firsts h last hours)[i]? ≠ some true := by
  induction hours generalizing last i with
  | nil => simp [firsts]
  | cons q rest ih =>
    cases i with
    | zero =>
      have hq : q ≠ h := by simpa using other
      simp [firsts, hq]
    | succ i =>
      rw [firsts, List.getElem?_cons_succ]
      exact ih (by simpa using other)

theorem oncePerBlock_firsts (h : Nat) (hours : List Nat) :
    OncePerBlock h hours (firsts h none hours) where
  length := length_firsts h none hours
  block := by
    rintro before n after rfl starts -
    have first : firsts h before.getLast? (List.replicate (n + 1) h) =
        true :: List.replicate n false := by
      rw [List.replicate_succ, firsts, firsts_replicate, decide_eq_true ⟨rfl, starts⟩]
    rw [List.append_assoc, firsts_append, Option.or_none, firsts_append, first,
      List.drop_left' (length_firsts h none before), List.take_left' (by simp)]
  outside _ := firsts_of_ne

end Rounds

theorem decimal_inj {m n : Nat} : decimal m = decimal n ↔ m = n :=
  ⟨decimal_injective, congrArg decimal⟩

theorem getAbTimeOfHour_now (h q : Nat) : decimal h = getAbTimeOfHour true q ↔ h = q := decimal_inj

theorem getAbTimeOfHour_next {q : Nat} (hq : q < 24) (h : Nat) :
    decimal h = getAbTimeOfHour false q ↔ h = (q + 1) % 24 := by
  have hour : (if q = 23 then 0 else q + 1) = (q + 1) % 24 := by split <;> omega
  rw [← hour]
  exact decimal_inj

namespace HourThread

variable {ε ω : Type} {refresh : ε → ω → Outcome Exception ω}

/-- Armed in the hour before `h`, after a round then or at the start, and disarmed by the refresh of
the hour `h`. -/
structure Ready (h : Nat) (last : Option Nat) (thread : HourThread ω) : Prop where
  freshHour : thread.freshHour = decimal h
  start : last = none → thread.freshTags = true
  before : ∀ p, last = some p → h = (p + 1) % 24 → thread.freshTags = true
  within : last = some h → thread.freshTags = false

theorem ready_new (owner : ω) (h : Nat) : (new owner (decimal h)).Ready h none where
  freshHour := rfl
  start _ := rfl
  before _ hp := by cases hp
  within hp := by cases hp

/-- The second test leaves the thread ready, whatever the first one did before it. -/
theorem ready_armIf {h q : Nat} (hh : h < 24) (hq : q < 24) {thread : HourThread ω}
    (freshHour : thread.freshHour = decimal h) (within : q = h → thread.freshTags = false) :
    (thread.armIf q).Ready h (some q) := by
  unfold armIf
  rw [freshHour]
  by_cases next : h = (q + 1) % 24
  · rw [if_pos ((getAbTimeOfHour_next hq h).mpr next)]
    exact ⟨rfl, by simp, fun _ _ _ => rfl, fun hp => by
      obtain rfl : q = h := Option.some.inj hp
      omega⟩
  · rw [if_neg (mt (getAbTimeOfHour_next hq h).mp next)]
    refine ⟨freshHour, by simp, fun p hp hnext => ?_, fun hp => within (Option.some.inj hp)⟩
    obtain rfl : q = p := Option.some.inj hp
    exact absurd hnext next

/-- A round calls the refresh when it is the first of its block in the hour `h`. -/
theorem round_ready {h : Nat} (hh : h < 24) {last : Option Nat} {thread : HourThread ω}
    (ready : thread.Ready h last) {tick : HourTick ε} (range : tick.tmHour < 24)
    (same : tick.tmHourAgain = tick.tmHour) (follow : ∀ p, last = some p → NextHour p tick.tmHour)
    (never : ∀ owner, ∃ owner', refresh tick.env owner = .ok owner') :
    ∃ thread', thread.round refresh tick =
        .ok (decide (tick.tmHour = h ∧ last ≠ some h), thread') ∧
      thread'.Ready h (some tick.tmHour) := by
  have armed : tick.tmHour = h → (thread.freshTags = true ↔ last ≠ some h) := by
    intro now
    constructor
    · intro tags hlast
      exact Bool.noConfusion (tags.symm.trans (ready.within hlast))
    · intro hlast
      cases last with
      | none => exact ready.start rfl
      | some p =>
        rcases follow p rfl with hour | hour
        · exact absurd (congrArg some (hour.symm.trans now)) hlast
        · exact ready.before p rfl (now.symm.trans hour)
  have test : thread.freshHour = getAbTimeOfHour true tick.tmHour ∧ thread.freshTags = true ↔
      tick.tmHour = h ∧ last ≠ some h := by
    rw [ready.freshHour, getAbTimeOfHour_now, eq_comm (a := h)]
    exact and_congr_right armed
  unfold round refreshIf
  rw [same]
  by_cases fires : tick.tmHour = h ∧ last ≠ some h
  · obtain ⟨owner', howner⟩ := never thread.owner
    rw [if_pos (test.mpr fires), howner, decide_eq_true fires]
    exact ⟨_, rfl, ready_armIf hh range ready.freshHour fun _ => rfl⟩
  · rw [if_neg (mt test.mp fires), decide_eq_false fires]
    refine ⟨_, rfl, ready_armIf hh range ready.freshHour fun now => ?_⟩
    exact Bool.eq_false_iff.mpr fun tags => fires ⟨now, (armed now).mp tags⟩

theorem run_ready {h : Nat} (hh : h < 24) {ticks : List (HourTick ε)} (daily : Daily ticks)
    (never : ∀ tick ∈ ticks, ∀ owner, ∃ owner', refresh tick.env owner = .ok owner')
    {last : Option Nat} {thread : HourThread ω} (ready : thread.Ready h last)
    (follow : ∀ p q, last = some p → (hours ticks).head? = some q → NextHour p q) :
    ∃ thread', run refresh ticks thread = .ok (firsts h last (hours ticks), thread') := by
  induction ticks generalizing last thread with
  | nil => exact ⟨thread, rfl⟩
  | cons tick rest ih =>
    obtain ⟨next, hround, hnext⟩ := round_ready hh ready (daily.range tick (by simp))
      (daily.same tick (by simp)) (fun p hp => follow p _ hp rfl) (never tick (by simp))
    have chain := List.isChain_cons.mp daily.follow
    have below : Daily rest :=
      ⟨fun t ht => daily.range t (by simp [ht]), fun t ht => daily.same t (by simp [ht]), chain.2⟩
    obtain ⟨final, hrun⟩ := ih below (fun t ht => never t (by simp [ht])) hnext
      fun p q hp hq => Option.some.inj hp ▸ chain.1 q hq
    exact ⟨final, by rw [run, hround]; simp only [bind, Except.bind, hrun]; rfl⟩

theorem round_owner {tick : HourTick ε} {thread thread' : HourThread ω} {called : Bool}
    (h : thread.round refresh tick = .ok (called, thread')) :
    (if called then [tick.env] else []).foldlM (fun owner env => refresh env owner) thread.owner =
      .ok thread'.owner := by
  have armed (q : Nat) (thread : HourThread ω) : (thread.armIf q).owner = thread.owner := by
    unfold armIf
    split <;> rfl
  obtain ⟨⟨called', tested⟩, htest, h⟩ := bind_eq_ok.mp h
  obtain ⟨rfl, rfl⟩ := Prod.mk.inj (Except.ok.inj h)
  rw [armed]
  unfold refreshIf at htest
  split at htest
  · obtain ⟨owner', howner, htest⟩ := bind_eq_ok.mp htest
    obtain ⟨rfl, rfl⟩ := Prod.mk.inj (Except.ok.inj htest)
    simp only [if_true, List.foldlM_cons, howner]
    rfl
  · obtain ⟨rfl, rfl⟩ := Prod.mk.inj (Except.ok.inj htest)
    rfl

/-- The owner that a run ends with is what the refreshes of its rounds make of it, and no others. -/
theorem run_owner {ticks : List (HourTick ε)} {thread thread' : HourThread ω} {calls : List Bool}
    (h : run refresh ticks thread = .ok (calls, thread')) :
    (refreshedWith ticks calls).foldlM (fun owner env => refresh env owner) thread.owner =
      .ok thread'.owner := by
  induction ticks generalizing thread calls with
  | nil =>
    obtain ⟨rfl, rfl⟩ := Prod.mk.inj (Except.ok.inj h)
    rfl
  | cons tick rest ih =>
    obtain ⟨⟨called, next⟩, hround, h⟩ := bind_eq_ok.mp h
    obtain ⟨⟨calls', last⟩, hrest, h⟩ := bind_eq_ok.mp h
    obtain ⟨rfl, rfl⟩ := Prod.mk.inj (Except.ok.inj h)
    have all : refreshedWith (tick :: rest) (called :: calls') =
        (if called then [tick.env] else []) ++ refreshedWith rest calls' := rfl
    rw [all, foldlM_append_of_ok (round_owner hround)]
    exact ih hrest

/-- The run of a thread that its class has just constructed. -/
theorem run_new {h : Nat} (hh : h < 24) {ticks : List (HourTick ε)} (daily : Daily ticks)
    (never : ∀ tick ∈ ticks, ∀ owner, ∃ owner', refresh tick.env owner = .ok owner') (owner : ω) :
    ∃ calls thread, run refresh ticks (new owner (decimal h)) = .ok (calls, thread) ∧
      OncePerBlock h (hours ticks) calls := by
  obtain ⟨thread, hrun⟩ := run_ready hh daily never (ready_new owner h) fun _ _ hp => by cases hp
  exact ⟨_, thread, hrun, oncePerBlock_firsts h (hours ticks)⟩

end HourThread

/-- A flush with these answers throws nothing. -/
def FlushEnv.NeverThrows (env : FlushEnv) : Prop :=
  ∀ (handler : ABDyeingHandler) n, ∃ m, (handler.flushFreshUserPolicy env.store env.freshClient
    env.pushClient env.time env.clock n).2 = .ok m

namespace FreshThread

theorem flush_ok {env : FlushEnv} (never : env.NeverThrows) (owner : ABDyeingHandler × Nat) :
    ∃ owner', flush env owner = .ok owner' := by
  obtain ⟨m, hm⟩ := never owner.1 owner.2
  unfold flush
  generalize owner.1.flushFreshUserPolicy env.store env.freshClient env.pushClient env.time
    env.clock owner.2 = flushed at hm
  obtain ⟨handler, result⟩ := flushed
  obtain rfl : result = .ok m := hm
  exact ⟨_, rfl⟩

/-- After its first round the thread is an `HourThread`. -/
theorem run_initialized {initial : FlushEnv} {ticks : List (HourTick FlushEnv)}
    {thread : FreshThread} (initialized : thread.initMysql = true) {calls : List Bool}
    {base : HourThread (ABDyeingHandler × Nat)}
    (h : thread.toHourThread.run flush ticks = .ok (calls, base)) :
    thread.run initial ticks =
      .ok (calls.map fun called => (false, called), { thread with toHourThread := base }) := by
  induction ticks generalizing thread calls with
  | nil =>
    obtain ⟨rfl, rfl⟩ := Prod.mk.inj (Except.ok.inj h)
    rfl
  | cons tick rest ih =>
    obtain ⟨⟨called, next⟩, hround, h⟩ := bind_eq_ok.mp h
    obtain ⟨⟨calls', last⟩, hrest, h⟩ := bind_eq_ok.mp h
    obtain ⟨rfl, rfl⟩ := Prod.mk.inj (Except.ok.inj h)
    have hinit : thread.init initial = .ok (false, thread) := if_pos initialized
    have hnext : FreshThread.initMysql { thread with toHourThread := next } = true := initialized
    have hrun := ih hnext hrest
    rw [run, round, hinit]
    simp only [bind, Except.bind, hround, pure, Except.pure, hrun]
    rfl

/-- A new thread flushes on entry in its first round only, and then does as an `HourThread`. -/
theorem run_new {initial : FlushEnv} {ticks : List (HourTick FlushEnv)}
    {owner owner' : ABDyeingHandler × Nat} {freshHour : Bytes}
    (hinit : flush initial owner = .ok owner') {calls : List Bool}
    {base : HourThread (ABDyeingHandler × Nat)}
    (h : (HourThread.new owner' freshHour).run flush ticks = .ok (calls, base)) :
    ∃ rounds thread, run initial ticks (new owner freshHour) = .ok (rounds, thread) ∧
      rounds.map Prod.snd = calls ∧
      ∀ i entered called, rounds[i]? = some (entered, called) → (entered = true ↔ i = 0) := by
  cases ticks with
  | nil =>
    obtain ⟨rfl, rfl⟩ := Prod.mk.inj (Except.ok.inj h)
    exact ⟨[], _, rfl, rfl, by simp⟩
  | cons tick rest =>
    obtain ⟨⟨called, next⟩, hround, h⟩ := bind_eq_ok.mp h
    obtain ⟨⟨calls', last⟩, hrest, h⟩ := bind_eq_ok.mp h
    obtain ⟨rfl, rfl⟩ := Prod.mk.inj (Except.ok.inj h)
    have hfirst : (new owner freshHour).init initial =
        .ok (true, ⟨.new owner' freshHour, true⟩) := by
      rw [init, if_neg (by simp [new]), show (new owner freshHour).owner = owner from rfl, hinit]
      rfl
    have hrun : run initial rest ⟨next, true⟩ =
        .ok (calls'.map fun called => (false, called), ⟨last, true⟩) := run_initialized rfl hrest
    refine ⟨(true, called) :: calls'.map fun called => (false, called), ⟨last, true⟩, ?_, ?_, ?_⟩
    · rw [run, round, hfirst]
      simp only [bind, Except.bind, hround, pure, Except.pure, hrun]
    · rw [List.map_cons, List.map_map]
      exact congrArg _ (List.map_id _)
    · intro i entered called' hi
      cases i with
      | zero => simpa using (Prod.mk.inj (Option.some.inj hi)).1.symm
      | succ i =>
        rw [List.getElem?_cons_succ, List.getElem?_map, Option.map_eq_some_iff] at hi
        obtain ⟨c, -, hc⟩ := hi
        simpa using (Prod.mk.inj hc).1.symm

/-- The handler that a run ends with is what the flushes of its rounds make of it, and no others. -/
theorem run_owner {initial : FlushEnv} {ticks : List (HourTick FlushEnv)}
    {thread thread' : FreshThread} {rounds : List (Bool × Bool)}
    (h : run initial ticks thread = .ok (rounds, thread')) :
    (flushedWith initial ticks rounds).foldlM (fun owner env => flush env owner) thread.owner =
      .ok thread'.owner := by
  induction ticks generalizing thread rounds with
  | nil =>
    obtain ⟨rfl, rfl⟩ := Prod.mk.inj (Except.ok.inj h)
    rfl
  | cons tick rest ih =>
    obtain ⟨⟨calls, next⟩, hround, h⟩ := bind_eq_ok.mp h
    obtain ⟨⟨rounds', last⟩, hrest, h⟩ := bind_eq_ok.mp h
    obtain ⟨rfl, rfl⟩ := Prod.mk.inj (Except.ok.inj h)
    obtain ⟨⟨entered, initialized⟩, hinit, hround⟩ := bind_eq_ok.mp hround
    obtain ⟨⟨called, base⟩, hhour, hround⟩ := bind_eq_ok.mp hround
    obtain ⟨rfl, rfl⟩ := Prod.mk.inj (Except.ok.inj hround)
    have all : flushedWith initial (tick :: rest) ((entered, called) :: rounds') =
        (if entered then [initial] else []) ++
          ((if called then [tick.env] else []) ++ flushedWith initial rest rounds') := by
      rw [← List.append_assoc]
      rfl
    have entry : (if entered then [initial] else []).foldlM (fun owner env => flush env owner)
        thread.owner = .ok initialized.owner := by
      unfold init at hinit
      split at hinit
      · obtain ⟨rfl, rfl⟩ := Prod.mk.inj (Except.ok.inj hinit)
        rfl
      · obtain ⟨owner', howner, hinit⟩ := bind_eq_ok.mp hinit
        obtain ⟨rfl, rfl⟩ := Prod.mk.inj (Except.ok.inj hinit)
        simp only [if_true, List.foldlM_cons, howner]
        rfl
    rw [all, foldlM_append_of_ok entry, foldlM_append_of_ok (HourThread.round_owner hhour)]
    exact ih hrest

end FreshThread

/-- Both threads refresh once a day, every day: in the first round of each block of rounds in their
hour.  What they refresh ends up as these refreshes leave it, made one after the other. -/
theorem refreshes_once_a_day {h : Nat} (hh : h < 24) :
    (∀ (ticks : List (HourTick UInt64)) (owner : CurrentFresh), Daily ticks →
      ∃ calls thread, ClearThread.run ticks (.new owner (decimal h)) = .ok (calls, thread) ∧
        OncePerBlock h (hours ticks) calls ∧
        thread.owner = (HourThread.refreshedWith ticks calls).foldl
          (fun owner now => owner.clear now) owner) ∧
    (∀ (initial : FlushEnv) (ticks : List (HourTick FlushEnv)) (owner : ABDyeingHandler × Nat),
      Daily ticks → initial.NeverThrows → (∀ tick ∈ ticks, tick.env.NeverThrows) →
      ∃ rounds thread, FreshThread.run initial ticks (.new owner (decimal h)) =
          .ok (rounds, thread) ∧
        OncePerBlock h (hours ticks) (rounds.map Prod.snd) ∧
        (∀ i entered called, rounds[i]? = some (entered, called) → (entered = true ↔ i = 0)) ∧
        (FreshThread.flushedWith initial ticks rounds).foldlM
          (fun owner env => FreshThread.flush env owner) owner = .ok thread.owner) := by
  constructor
  · intro ticks owner daily
    obtain ⟨calls, thread, hrun, once⟩ : ∃ calls thread,
        ClearThread.run ticks (.new owner (decimal h)) = .ok (calls, thread) ∧
          OncePerBlock h (hours ticks) calls :=
      HourThread.run_new hh daily (fun _ _ owner => ⟨_, rfl⟩) owner
    have cleared : (HourThread.refreshedWith ticks calls).foldlM (fun owner now =>
        (pure (owner.clear now) : Outcome Exception CurrentFresh)) owner = .ok thread.owner :=
      HourThread.run_owner hrun
    rw [List.foldlM_pure] at cleared
    exact ⟨calls, thread, hrun, once, (Except.ok.inj cleared).symm⟩
  · intro initial ticks owner daily hinitial never
    obtain ⟨owner', howner⟩ := FreshThread.flush_ok hinitial owner
    obtain ⟨calls, base, hrun, once⟩ := HourThread.run_new hh daily
      (fun tick ht => FreshThread.flush_ok (never tick ht)) owner'
    obtain ⟨rounds, thread, hrounds, rfl, entered⟩ := FreshThread.run_new howner hrun
    exact ⟨rounds, thread, hrounds, once, entered, FreshThread.run_owner hrounds⟩

/-- A store of empty values, and a server that refuses every query. -/
def refusing : FlushEnv :=
  let client : MysqlClient :=
    ⟨fun _ _ => false, fun _ _ => true, fun _ _ => some 1, fun _ => none, fun _ => []⟩
  ⟨fun _ _ => .ok [], client, client, 0, fun _ => 0⟩

theorem refusing_neverThrows : refusing.NeverThrows := fun _ n => ⟨n + 6 + 6, rfl⟩

/-- A store of empty values, and a server that has a new user. -/
def freshEnv : FlushEnv :=
  ⟨fun _ _ => .ok [], ABDyeingHandler.answering true ABDyeingHandler.freshResult,
    ABDyeingHandler.answering true ABDyeingHandler.pushResult, 0, fun _ => 9⟩

theorem freshEnv_neverThrows : freshEnv.NeverThrows := fun _ n => ⟨n + 6 + 6, rfl⟩

/-- Kafka announced the user `u` ten minutes before `200000000000`. -/
def announcedBefore : CurrentFresh := CurrentFresh.empty.set 199400000000 199400000000 (str "u")

/-- Both threads are started in their hour, and the clock goes over midnight.  The cleaner forgets a
user, and the database, which refuses the query on entry, has a new one in the hour. -/
theorem refreshes_once_a_day_midnight :
    let daily {ε : Type} (env : ε) : List (HourTick ε) := [23, 23, 0, 0].map fun q => ⟨q, q, env⟩
    (∃ calls thread, ClearThread.run (daily 200000000000) (.new announcedBefore (decimal 23)) =
        .ok (calls, thread) ∧ OncePerBlock 23 [23, 23, 0, 0] calls ∧
      str "u" ∈ announcedBefore.kq ∧ str "u" ∉ thread.owner.kq) ∧
    ∃ rounds thread, FreshThread.run refusing (daily freshEnv) (.new (.blank [], 0) (decimal 23)) =
        .ok (rounds, thread) ∧ OncePerBlock 23 [23, 23, 0, 0] (rounds.map Prod.snd) ∧
      thread.owner.1.freshUser.isSome := by
  intro daily
  have follows {ε : Type} (env : ε) : Daily (daily env) := by
    refine ⟨?_, ?_, ?_⟩
    · simp [daily]
    · simp [daily]
    · change [23, 23, 0, 0].IsChain NextHour
      decide
  obtain ⟨clear, fresh⟩ := refreshes_once_a_day (by decide : 23 < 24)
  constructor
  · obtain ⟨calls, thread, hrun, once, howner⟩ :=
      clear (daily 200000000000) announcedBefore (follows _)
    have first : calls = [true, false, false, false] := by
      obtain ⟨last, result⟩ : ∃ last, ClearThread.run (daily 200000000000)
          (.new announcedBefore (decimal 23)) = .ok ([true, false, false, false], last) := ⟨_, rfl⟩
      exact (Prod.mk.inj (Except.ok.inj (hrun.symm.trans result))).1
    refine ⟨calls, thread, hrun, once, by decide, ?_⟩
    rw [howner, first]
    decide
  · obtain ⟨rounds, thread, hrun, once, -, howner⟩ := fresh refusing (daily freshEnv) (.blank [], 0)
      (follows _) refusing_neverThrows (by
        intro t ht
        obtain ⟨q, -, rfl⟩ := List.mem_map.mp ht
        exact freshEnv_neverThrows)
    have first : rounds = [(true, true), (false, false), (false, false), (false, false)] := by
      obtain ⟨last, result⟩ : ∃ last, FreshThread.run refusing (daily freshEnv)
          (.new (.blank [], 0) (decimal 23)) =
            .ok ([(true, true), (false, false), (false, false), (false, false)], last) := ⟨_, rfl⟩
      exact (Prod.mk.inj (Except.ok.inj (hrun.symm.trans result))).1
    obtain ⟨last, flushed, some⟩ : ∃ last, [refusing, freshEnv].foldlM
        (fun owner env => FreshThread.flush env owner) (.blank [], 0) = .ok last ∧
          last.1.freshUser.isSome := ⟨_, rfl, rfl⟩
    rw [first, show FreshThread.flushedWith refusing (daily freshEnv) _ = [refusing, freshEnv]
      from rfl, flushed] at howner
    exact ⟨rounds, thread, hrun, once, Except.ok.inj howner ▸ some⟩

end ABDyeing
