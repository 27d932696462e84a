import ABDyeing.FlushThread
import ABDyeing.Server.Schedules
import ABDyeing.Server.Writes

/-! Whole rounds of the threads.  The steps that a thread makes in one round of its loop do together
what the round does, so that between the steps of the other threads, too, `flushPolicy` is done as a
whole; only `set` and `clear` meet each other half way. -/

namespace ABDyeing

open Lib

namespace Server

variable {world : World} {s t : Server}

/-- The two halves of a flush. -/
theorem flushed_andThen {half : Flushed} {more : ABDyeingHandler → Nat → Flushed}
    {first last : Nat → Server → Server} {rest : Server → Except ProcessEnd Server}
    (second : ∀ handler n, rest (first n { s with handler := handler }) =
      (first n { s with handler := handler }).flushed (more handler n) last)
    (same : ∀ handler n handler' m,
      last m { first n { s with handler := handler } with handler := handler' } =
        last m { s with handler := handler' }) :
    (do rest (← s.flushed half first)) = s.flushed (half.andThen more) last := by
  obtain ⟨handler, (e | _) | n⟩ := half
  · rfl
  · rfl
  · refine (second handler n).trans ?_
    rw [Flushed.andThen_ok]
    obtain ⟨handler', (e | _) | m⟩ := more handler n
    · rfl
    · rfl
    · exact congrArg Except.ok (same handler n handler' m)

theorem flushed_bind_congr {half : Flushed} {first : Nat → Server → Server}
    {f g : Server → Except ProcessEnd Server}
    (same : ∀ handler n,
      f (first n { s with handler := handler }) = g (first n { s with handler := handler })) :
    (do f (← s.flushed half first)) = (do g (← s.flushed half first)) := by
  obtain ⟨handler, (e | _) | n⟩ := half
  · rfl
  · rfl
  · exact same handler n

variable (world) in
/-- Two steps of the flush thread are one `flushPolicy`. -/
theorem run_flush_round (top : s.flushThread.point = .whiteList) (store : Store) :
    s.run world [.flush store, .flush store] =
      s.flushed (s.handler.flushPolicy store s.flushThread.reads) fun n s =>
        { s with flushThread := ⟨.whiteList, n⟩ } := by
  rw [run, runSteps_pair, step, flushStep, top]
  exact flushed_andThen (fun _ _ => rfl) fun _ _ _ _ => rfl

variable (world) in
theorem run_flush_rounds (top : s.flushThread.point = .whiteList) (store : Store) (k : Nat) :
    s.run world (List.replicate (2 * k) (.flush store)) =
      s.flushed (Thread.run store k s.handler s.flushThread.reads) fun n s =>
        { s with flushThread := ⟨.whiteList, n⟩ } := by
  induction k generalizing s with
  | zero =>
    obtain ⟨_, _, ⟨_, _⟩, _, _, _⟩ := s
    obtain rfl := top
    rfl
  | succ k ih =>
    have twice : List.replicate (2 * (k + 1)) (ServerStep.flush store) =
        [.flush store, .flush store] ++ List.replicate (2 * k) (.flush store) := rfl
    have first := run_flush_round world top store
    unfold run at first ih ⊢
    rw [twice, runSteps_append, first, Thread.run]
    exact flushed_andThen (fun _ _ => ih rfl) fun _ _ _ _ => rfl

/-- A thread that only flushes policies leaves everything else of the handler alone. -/
theorem handler_of_flushes {steps : List ServerStep}
    (flushes : ∀ a ∈ steps, a.part = .policies) (hrun : s.run world steps = .ok t) :
    t.handler = { s.handler with
      whiteList := t.handler.whiteList, onlinePlugin := t.handler.onlinePlugin } := by
  have idle (i : ServerPart) (other : i ≠ .policies) : stepsOf ServerStep.part i steps = [] :=
    List.filter_eq_nil_iff.mpr fun a ha => by simpa [flushes a ha] using Ne.symm other
  have build := run_sameBuild hrun
  have users := (drives world).get_of_idle hrun (idle .users (by decide))
  have announced := (drives world).get_of_idle hrun (idle .announced (by decide))
  have freshUser : t.handler.freshUser = s.handler.freshUser := congrArg UsersPart.freshUser users
  have pushUser : t.handler.pushUser = s.handler.pushUser := congrArg UsersPart.pushUser users
  have kq : t.handler.kq = s.handler.kq := congrArg (fun x : AnnouncedPart => x.fresh.kq) announced
  simp only [← freshUser, ← pushUser, ← kq, ← build.types, ← build.whitePrefix,
    ← build.onlinePrefix, ← build.freshPrefix, ← build.logics]

/-- However the steps of the other threads fall between those of some rounds of the flush thread,
both plugins are those that as many calls of `flushPolicy` make of them. -/
theorem policies_of_rounds {steps : List ServerStep} {store : Store} {k : Nat}
    (top : s.flushThread.point = .whiteList)
    (rounds : stepsOf ServerStep.part .policies steps = List.replicate (2 * k) (.flush store))
    (hrun : s.run world steps = .ok t) :
    ∃ n, t.flushThread = ⟨.whiteList, n⟩ ∧ Thread.run store k s.handler s.flushThread.reads =
      ({ s.handler with
        whiteList := t.handler.whiteList, onlinePlugin := t.handler.onlinePlugin }, .ok n) := by
  obtain ⟨t', hrun', same⟩ := (drives world).alone hrun .policies rfl
  rw [rounds] at hrun'
  have handler := handler_of_flushes (fun a ha => by rw [List.eq_of_mem_replicate ha]; rfl) hrun'
  have result := (run_flush_rounds world top store k).symm.trans hrun'
  have whiteList : t'.handler.whiteList = t.handler.whiteList := congrArg PolicyPart.whiteList same
  have onlinePlugin : t'.handler.onlinePlugin = t.handler.onlinePlugin :=
    congrArg PolicyPart.onlinePlugin same
  have thread : t'.flushThread = t.flushThread := congrArg PolicyPart.thread same
  rw [whiteList, onlinePlugin] at handler
  rcases hthread : Thread.run store k s.handler s.flushThread.reads with ⟨h, (e | _) | n⟩
  · rw [hthread] at result
    cases result
  · rw [hthread] at result
    cases result
  · rw [hthread] at result
    obtain rfl := Except.ok.inj result
    exact ⟨n, thread.symm, by rw [← handler]⟩

theorem policies_of_rounds_example :
    let store := steady ABDyeingHandler.typeNode
    let steps : List ServerStep := [.flush store, .clear 9 7, .flush store]
    ∃ t, (blank [str "t"]).run World.blank steps = .ok t ∧ ∃ n, t.flushThread = ⟨.whiteList, n⟩ ∧
      (Thread.run store 1 (blank [str "t"]).handler 0).2 = .ok n := by
  intro store steps
  have rounds : stepsOf ServerStep.part .policies steps = List.replicate (2 * 1) (.flush store) :=
    rfl
  obtain ⟨t, hrun⟩ : ∃ t, (blank [str "t"]).run World.blank steps = .ok t := ⟨_, rfl⟩
  obtain ⟨n, thread, result⟩ := policies_of_rounds rfl rounds hrun
  exact ⟨t, hrun, n, thread, congrArg Prod.snd result⟩

/-- The `FreshThread` of the server at the top of its loop. -/
def freshThreadOf (s : Server) : FreshThread :=
  { owner := (s.handler, s.freshThread.reads)
    freshHour := s.freshThread.freshHour
    freshTags := s.freshThread.freshTags
    initMysql := s.freshThread.initMysql }

def putFreshThread (thread : FreshThread) (point : FreshThreadPoint) (s : Server) : Server :=
  { s with
    handler := thread.owner.1
    freshThread :=
      ⟨thread.freshHour, thread.freshTags, thread.initMysql, point, thread.owner.2⟩ }

theorem uncaught_map {ε α β : Type} (f : ε → ServerException) (x : Outcome ε α) (g : α → β) :
    uncaught f (x.map g) = (uncaught f x).map g := by
  rcases x with (e | _) | a <;> rfl

/-- Two steps of the fresh thread are one flush. -/
theorem flushFreshUser_flushPushUser (env : FlushEnv) (mid : FreshThreadPoint)
    (next : FreshThreadState → FreshThreadState) :
    (do (← s.flushFreshUser env mid).flushPushUser env next) =
      (uncaught .exception (FreshThread.flush env s.freshThreadOf.owner)).map fun owner =>
        { s with
          handler := owner.1
          freshThread := next { s.freshThread with point := mid, reads := owner.2 } } := by
  have halves : (do (← s.flushFreshUser env mid).flushPushUser env next) =
      s.flushed (s.handler.flushFreshUserPolicy env.store env.freshClient env.pushClient env.time
        env.clock s.freshThread.reads) fun n s =>
          { s with freshThread := next { s.freshThread with point := mid, reads := n } } :=
    flushed_andThen (fun _ _ => rfl) fun _ _ _ _ => rfl
  rw [halves, FreshThread.flush]
  simp only [freshThreadOf]
  rcases s.handler.flushFreshUserPolicy env.store env.freshClient env.pushClient env.time
    env.clock s.freshThread.reads with ⟨handler, (e | _) | n⟩
  all_goals rfl

variable (world) in
/-- The steps of the fresh thread up to its first test are `if (!_init_mysql)`. -/
theorem run_fresh_init (top : s.freshThread.point = .init) (initial : FlushEnv) (tmHour : Nat) :
    ∃ m, s.run world (List.replicate m (.fresh initial tmHour)) =
      (uncaught .exception (s.freshThreadOf.init initial)).map fun r =>
        s.putFreshThread r.2 .test := by
  by_cases done : s.freshThread.initMysql = true
  · have init : s.freshThreadOf.init initial = .ok (false, s.freshThreadOf) := if_pos done
    refine ⟨1, ?_⟩
    rw [List.replicate_one, run, runSteps_singleton, step, freshStep, top, init]
    exact if_pos done
  · have init : s.freshThreadOf.init initial =
        (FreshThread.flush initial s.freshThreadOf.owner).map fun owner =>
          (true, { s.freshThreadOf with owner := owner, initMysql := true }) := by
      rw [FreshThread.init, if_neg (by exact done)]
      cases FreshThread.flush initial s.freshThreadOf.owner <;> rfl
    have first : s.freshStep initial tmHour = s.flushFreshUser initial .initPush := by
      rw [freshStep, top]
      exact if_neg done
    have second : (do step world (← s.flushFreshUser initial .initPush) (.fresh initial tmHour)) =
        (do (← s.flushFreshUser initial .initPush).flushPushUser initial fun thread =>
          { thread with initMysql := true, point := .test }) :=
      flushed_bind_congr fun _ _ => rfl
    refine ⟨2, (runSteps_pair s _ _).trans ?_⟩
    rw [step, first, second, flushFreshUser_flushPushUser, init, uncaught_map]
    cases uncaught .exception (FreshThread.flush initial s.freshThreadOf.owner) <;> rfl

variable (world) in
/-- The steps of the fresh thread between its two tests are the first test with its flush. -/
theorem run_fresh_refresh (test : s.freshThread.point = .test) (tick : HourTick FlushEnv) :
    ∃ n, s.run world (List.replicate n (.fresh tick.env tick.tmHour)) =
      (uncaught .exception (s.freshThreadOf.refreshIf FreshThread.flush tick)).map fun r =>
        s.putFreshThread { s.freshThreadOf with toHourThread := r.2 } .arm := by
  by_cases due : s.freshThread.freshHour = getAbTimeOfHour true tick.tmHour ∧
      s.freshThread.freshTags = true
  · have refreshed : s.freshThreadOf.refreshIf FreshThread.flush tick =
        (FreshThread.flush tick.env s.freshThreadOf.owner).map fun owner =>
          (true, { s.freshThreadOf.toHourThread with owner := owner, freshTags := false }) := by
      rw [HourThread.refreshIf, if_pos (by exact due)]
      cases FreshThread.flush tick.env s.freshThreadOf.owner <;> rfl
    have first : s.freshStep tick.env tick.tmHour = s.flushFreshUser tick.env .push := by
      rw [freshStep, test]
      exact if_pos due
    have second :
        (do step world (← s.flushFreshUser tick.env .push) (.fresh tick.env tick.tmHour)) =
          (do (← s.flushFreshUser tick.env .push).flushPushUser tick.env fun thread =>
            { thread with freshTags := false, point := .arm }) :=
      flushed_bind_congr fun _ _ => rfl
    refine ⟨2, (runSteps_pair s _ _).trans ?_⟩
    rw [step, first, second, flushFreshUser_flushPushUser, refreshed, uncaught_map]
    cases uncaught .exception (FreshThread.flush tick.env s.freshThreadOf.owner) <;> rfl
  · have idle : s.freshThreadOf.refreshIf FreshThread.flush tick =
        .ok (false, s.freshThreadOf.toHourThread) := if_neg due
    refine ⟨1, ?_⟩
    rw [List.replicate_one, run, runSteps_singleton, step, freshStep, test, idle]
    exact if_neg due

theorem freshStep_arm (thread : FreshThread) (env : FlushEnv) (tmHour : Nat) :
    (s.putFreshThread thread .arm).freshStep env tmHour =
      .ok (s.putFreshThread { thread with toHourThread := thread.armIf tmHour } .init) := by
  by_cases due : thread.freshHour = getAbTimeOfHour false tmHour <;>
    simp [freshStep, putFreshThread, HourThread.armIf, due]

variable (world) in
/-- The steps of the fresh thread in a round of its loop are the round, which may find another hour
and other servers on entry, at its first test and at its second one. -/
theorem run_fresh_round (top : s.freshThread.point = .init) (initial : FlushEnv)
    (tick : HourTick FlushEnv) (tmHour : Nat) :
    ∃ m n, s.run world (List.replicate m (.fresh initial tmHour) ++
        List.replicate n (.fresh tick.env tick.tmHour) ++ [.fresh tick.env tick.tmHourAgain]) =
      (uncaught .exception (s.freshThreadOf.round initial tick)).map fun r =>
        s.putFreshThread r.2 .init := by
  obtain ⟨m, entry⟩ := run_fresh_init world top initial tmHour
  cases hinit : s.freshThreadOf.init initial with
  | error e =>
    refine ⟨m, 0, ?_⟩
    rw [hinit] at entry
    have round : s.freshThreadOf.round initial tick = .error e := by
      rw [FreshThread.round, hinit]
      rfl
    rw [List.append_assoc, run, runSteps_append, show runSteps _ _ _ = _ from entry, round]
    cases e <;> rfl
  | ok entered =>
    rw [hinit] at entry
    have test : (s.putFreshThread entered.2 .test).freshThread.point = .test := rfl
    obtain ⟨n, hour⟩ := run_fresh_refresh world test tick
    refine ⟨m, n, ?_⟩
    have round : s.freshThreadOf.round initial tick =
        (entered.2.refreshIf FreshThread.flush tick).map fun r =>
          ((entered.1, r.1), { entered.2 with toHourThread := r.2.armIf tick.tmHourAgain }) := by
      rw [FreshThread.round, hinit]
      simp only [bind, Except.bind, HourThread.round]
      cases entered.2.refreshIf FreshThread.flush tick <;> rfl
    have same : (s.putFreshThread entered.2 .test).freshThreadOf = entered.2 := rfl
    rw [same] at hour
    unfold run at entry hour ⊢
    rw [runSteps_append, runSteps_append, entry]
    change (do runSteps _ (← runSteps _ (s.putFreshThread entered.2 .test) _) _) = _
    rw [hour, round]
    rcases entered.2.refreshIf FreshThread.flush tick with (e | _) | r
    · rfl
    · rfl
    · exact (runSteps_singleton _ _).trans (freshStep_arm (s := s) _ tick.env tick.tmHourAgain)

/-- The `ClearThread` of the server at the top of its loop. -/
def clearThreadOf (s : Server) : ClearThread :=
  ⟨s.currentFresh, s.clearThread.freshHour, s.clearThread.freshTags⟩

def putClearThread (thread : ClearThread) (point : ClearThreadPoint) (s : Server) : Server :=
  { s.setFresh thread.owner with clearThread := ⟨thread.freshHour, thread.freshTags, point⟩ }

/-- The sections of `clear` after its scan, up to the second test of the thread. -/
theorem run_clear_erases (rubsh : List Bytes) (tmHour : Nat) (now : UInt64)
    (erasing : s.clearThread.point = .erase rubsh) :
    s.run world (List.replicate (rubsh.length + 1) (.clear tmHour now)) =
      .ok (s.putClearThread ⟨rubsh.foldl CurrentFresh.clearErase s.currentFresh,
        s.clearThread.freshHour, false⟩ .arm) := by
  induction rubsh generalizing s with
  | nil =>
    rw [List.length_nil, List.replicate_one, run, runSteps_singleton, step, clearStep, erasing]
    rfl
  | cons uid rubsh ih =>
    rw [List.length_cons, List.replicate_succ, run, runSteps, step, clearStep, erasing]
    exact ih rfl

variable (world) in
/-- The steps of the cleaner between its two tests are the first test with its `clear`. -/
theorem run_clear_refresh (top : s.clearThread.point = .test) (tick : HourTick UInt64) :
    ∃ n called thread,
      s.clearThreadOf.refreshIf (fun now owner => .ok (owner.clear now)) tick =
        .ok (called, thread) ∧
      s.run world (List.replicate n (.clear tick.tmHour tick.env)) =
        .ok (s.putClearThread thread .arm) := by
  by_cases due : s.clearThread.freshHour = getAbTimeOfHour true tick.tmHour ∧
      s.clearThread.freshTags = true
  · let cnow := tick.env - CurrentFresh.retention.toInt64.toUInt64
    let scanned := { s.setFresh (s.currentFresh.clearScan cnow) with
      clearThread := { s.clearThread with point := .erase (s.currentFresh.rubsh cnow) } }
    refine ⟨(s.currentFresh.rubsh cnow).length + 2, true,
      ⟨s.currentFresh.clear tick.env, s.clearThread.freshHour, false⟩, if_pos due, ?_⟩
    have first : s.step world (.clear tick.tmHour tick.env) = .ok scanned := by
      rw [step, clearStep, top]
      exact if_pos due
    rw [List.replicate_succ, run, runSteps, first]
    exact run_clear_erases (s.currentFresh.rubsh cnow) tick.tmHour tick.env rfl
  · refine ⟨1, false, s.clearThreadOf, if_neg due, ?_⟩
    rw [List.replicate_one, run, runSteps_singleton, step, clearStep, top]
    exact if_neg due

theorem clearStep_arm (thread : ClearThread) (tmHour : Nat) (now : UInt64) :
    (s.putClearThread thread .arm).clearStep tmHour now =
      .ok (s.putClearThread (thread.armIf tmHour) .test) := by
  by_cases due : thread.freshHour = getAbTimeOfHour false tmHour <;>
    simp [clearStep, putClearThread, setFresh, HourThread.armIf, due]

/-- The steps of the cleaner in a round of its loop are the round. -/
theorem run_clear_round (top : s.clearThread.point = .test) (tick : HourTick UInt64) :
    ∃ n called thread,
      s.clearThreadOf.round (fun now owner => .ok (owner.clear now)) tick = .ok (called, thread) ∧
      s.run world (List.replicate n (.clear tick.tmHour tick.env) ++
        [.clear tick.tmHourAgain tick.env]) = .ok (s.putClearThread thread .test) := by
  obtain ⟨n, called, thread, hrefresh, hrun⟩ := run_clear_refresh world top tick
  refine ⟨n, called, thread.armIf tick.tmHourAgain, ?_, ?_⟩
  · rw [HourThread.round, hrefresh]
    rfl
  · unfold run at hrun ⊢
    rw [runSteps_append, hrun]
    exact (runSteps_singleton _ _).trans (clearStep_arm (s := s) thread tick.tmHourAgain tick.env)

/-- What `processkafka` does is to set the uid of the record. -/
theorem processkafka_eq (parse : Bytes → Option Json) (t1 t2 : UInt64) (msg : Bytes)
    (fresh : CurrentFresh) :
    processkafka parse t1 t2 msg fresh = (recordUid parse msg).map fun uid =>
      match uid with
      | none => fresh
      | some uid => fresh.set t1 t2 uid := by
  unfold processkafka recordUid
  rcases parse (cString msg) with _ | document
  · rfl
  · cases document with
    | object members =>
      simp only
      cases Json.findMember members (str "uid") with
      | none => rfl
      | some value =>
        simp only [bind, Except.bind]
        cases Json.subscript members (str "uid") with
        | error e => rfl
        | ok uid =>
          simp only
          cases uid.getString with
          | error e => rfl
          | ok uid =>
            simp only
            cases Json.subscript members (str "event_time") with
            | error e => rfl
            | ok time =>
              simp only
              cases time.getString <;> rfl
    | _ => rfl

/-- A round of the loop of `KafkaThread::run`. -/
def kafkaRound (world : World) (poll : Poll) (tm : Tm) (t1 t2 : UInt64)
    (consumer : KafkaConsumer) (s : Server) : Except ProcessEnd Server :=
  match consumer.fetchMsg poll tm s.kafkaThread.process with
  | none => .error .undefined
  | some fetched => do
    let s := { s with kafkaThread := { s.kafkaThread with process := fetched.process } }
    let s := s.kafkaPoint (.fetch fetched.consumer)
    if fetched.ret ≠ 0 then return s
    else
      let fresh ← uncaught .exception
        (processkafka world.parse t1 t2 fetched.msg s.currentFresh)
      return s.setFresh fresh

/-- The steps of the Kafka thread in a round of its loop are the round. -/
theorem run_kafka_round {consumer : KafkaConsumer} (top : s.kafkaThread.point = .fetch consumer)
    (poll : Poll) (tm : Tm) (t1 t2 : UInt64) :
    ∃ n, s.run world (List.replicate n (.kafka poll tm t1) ++ [.kafka poll tm t2]) =
      s.kafkaRound world poll tm t1 t2 consumer := by
  have first (now : UInt64) : s.step world (.kafka poll tm now) =
      s.kafkaFetch world poll tm consumer := by
    rw [step, kafkaStep, top]
  by_cases sets : ∃ fetched uid, consumer.fetchMsg poll tm s.kafkaThread.process = some fetched ∧
      fetched.ret = 0 ∧ recordUid world.parse fetched.msg = .ok (some uid)
  · obtain ⟨fetched, uid, hfetch, hret, huid⟩ := sets
    refine ⟨2, ?_⟩
    have fetch := first t1
    simp only [kafkaFetch, hfetch, hret, huid, ne_eq, not_true_eq_false, if_false, bind,
      Except.bind, uncaught] at fetch
    simp only [run, kafkaRound, hfetch, hret, processkafka_eq, huid]
    rw [List.replicate_succ, List.cons_append, runSteps, fetch]
    rfl
  · refine ⟨0, ?_⟩
    rw [List.replicate_zero, List.nil_append, run, runSteps_singleton, first, kafkaFetch,
      kafkaRound]
    cases hfetch : consumer.fetchMsg poll tm s.kafkaThread.process with
    | none => rfl
    | some fetched =>
      simp only
      by_cases hret : fetched.ret = 0
      · have never (uid : Bytes) : recordUid world.parse fetched.msg ≠ .ok (some uid) :=
          fun huid => sets ⟨fetched, uid, hfetch, hret, huid⟩
        rw [if_neg (not_not_intro hret), if_neg (not_not_intro hret), processkafka_eq]
        rcases huid : recordUid world.parse fetched.msg with (e | _) | _ | uid
        · rfl
        · rfl
        · rfl
        · exact absurd huid (never uid)
      · rw [if_pos hret, if_pos hret]

end Server

end ABDyeing
