import ABDyeing.Server.Threads

/-! The threads of the server work on parts of its state: the policies, the users of the database,
the users that Kafka announced, and the logics, which no thread writes.  So the order in which the
steps of different threads fall does not matter, but for the thread that records the announced users
and the one that clears them, which share a part. -/

namespace ABDyeing

open Lib

inductive ServerPart
  | policies
  | users
  | announced
  | logics
  deriving DecidableEq

structure PolicyPart where
  types : List Bytes
  whitePrefix : Bytes
  onlinePrefix : Bytes
  whiteList : Option DyeingWhiteListPlugin
  onlinePlugin : Option DyeingOnlinePlugin
  thread : ThreadState

structure UsersPart where
  freshPrefix : Bytes
  freshUser : Option DyeingFreshUserPlugin
  pushUser : Option DyeingPushUserTypePlugin
  thread : FreshThreadState

structure AnnouncedPart where
  fresh : CurrentFresh
  kafkaThread : KafkaThreadState
  clearThread : ClearThreadState

namespace ServerPart

def Holds : ServerPart → Type
  | policies => PolicyPart
  | users => UsersPart
  | announced => AnnouncedPart
  | logics => Nat → Option DyeingLogic

def get : ∀ i : ServerPart, Server → i.Holds
  | policies, s => PolicyPart.mk s.handler.types s.handler.whitePrefix s.handler.onlinePrefix
      s.handler.whiteList s.handler.onlinePlugin s.flushThread
  | users, s => UsersPart.mk s.handler.freshPrefix s.handler.freshUser s.handler.pushUser
      s.freshThread
  | announced, s => AnnouncedPart.mk s.currentFresh s.kafkaThread s.clearThread
  | logics, s => s.handler.logics

def setPolicies (x : PolicyPart) (s : Server) : Server :=
  { s with
    handler := { s.handler with
      types := x.types
      whitePrefix := x.whitePrefix
      onlinePrefix := x.onlinePrefix
      whiteList := x.whiteList
      onlinePlugin := x.onlinePlugin }
    flushThread := x.thread }

def setUsers (x : UsersPart) (s : Server) : Server :=
  { s with
    handler := { s.handler with
      freshPrefix := x.freshPrefix
      freshUser := x.freshUser
      pushUser := x.pushUser }
    freshThread := x.thread }

def setAnnounced (x : AnnouncedPart) (s : Server) : Server :=
  { s.setFresh x.fresh with kafkaThread := x.kafkaThread, clearThread := x.clearThread }

def set : ∀ i : ServerPart, i.Holds → Server → Server
  | policies, x, s => setPolicies x s
  | users, x, s => setUsers x s
  | announced, x, s => setAnnounced x s
  | logics, x, s => { s with handler := { s.handler with logics := x } }

/-- The parts make up the server, whatever they are put into. -/
theorem set_get_all (s base : Server) :
    set policies (get policies s) (set users (get users s)
      (set announced (get announced s) (set logics (get logics s) base))) = s := rfl

end ServerPart

/-- The parts of a server. -/
def Server.parts : Parts Server ServerPart ServerPart.Holds where
  get := ServerPart.get
  set := ServerPart.set
  get_set i x s := by cases i <;> rfl
  get_set_of_ne {i j} other x s := by
    cases i <;> cases j <;> first | exact absurd rfl other | rfl
  ext {s t} same := by
    rw [← ServerPart.set_get_all s s, ← ServerPart.set_get_all t s, same, same, same, same]

/-- The part that a step works on. -/
def ServerStep.part : ServerStep → ServerPart
  | .flush _ => .policies
  | .fresh _ _ => .users
  | .kafka _ _ _ => .announced
  | .clear _ _ => .announced

namespace Server

open ServerPart

variable (s s' : Server)

/-- Half a flush does to a part what it does to the server, where loading and publishing agree. -/
theorem flushed_publishIf {α : Type} {put : Server → Server}
    (loaded : Outcome Exception ((Bool × α) × Nat)) {publish publish' : α → ABDyeingHandler}
    {next next' : Nat → Server → Server}
    (published : ∀ plugin n, put (next n { s with handler := publish plugin }) =
      next' n { s' with handler := publish' plugin })
    (kept : ∀ n, put (next n s) = next' n s') :
    s'.flushed (s'.handler.publishIf loaded publish') next' =
      (s.flushed (s.handler.publishIf loaded publish) next).map put := by
  rcases loaded with (e | _) | ⟨⟨_ | _, plugin⟩, n⟩
  · rfl
  · rfl
  · exact congrArg Except.ok (kept n).symm
  · exact congrArg Except.ok (published plugin n).symm

theorem flushStep_part (store : Store) :
    (set policies (get policies s) s').flushStep store =
      (s.flushStep store).map fun t => set policies (get policies t) s' := by
  cases point : s.flushThread.point with
  | whiteList =>
    have point' : (set policies (get policies s) s').flushThread.point = .whiteList := point
    rw [flushStep, flushStep, point, point']
    exact flushed_publishIf s _ _ (fun _ _ => rfl) fun _ => rfl
  | onlinePlugin =>
    have point' : (set policies (get policies s) s').flushThread.point = .onlinePlugin := point
    rw [flushStep, flushStep, point, point']
    exact flushed_publishIf s _ _ (fun _ _ => rfl) fun _ => rfl

theorem freshStep_part (env : FlushEnv) (tmHour : Nat) :
    (set users (get users s) s').freshStep env tmHour =
      (s.freshStep env tmHour).map fun t => set users (get users t) s' := by
  have thread : (set users (get users s) s').freshThread = s.freshThread := rfl
  rw [freshStep, freshStep, thread]
  cases s.freshThread.point with
  | init =>
    simp only
    split
    · rfl
    · exact flushed_publishIf s _ _ (fun _ _ => rfl) fun _ => rfl
  | initPush => exact flushed_publishIf s _ _ (fun _ _ => rfl) fun _ => rfl
  | test =>
    simp only
    split
    · exact flushed_publishIf s _ _ (fun _ _ => rfl) fun _ => rfl
    · rfl
  | push => exact flushed_publishIf s _ _ (fun _ _ => rfl) fun _ => rfl
  | arm =>
    simp only
    split <;> rfl

theorem clearStep_part (tmHour : Nat) (now : UInt64) :
    (set announced (get announced s) s').clearStep tmHour now =
      (s.clearStep tmHour now).map fun t => set announced (get announced t) s' := by
  have thread : (set announced (get announced s) s').clearThread = s.clearThread := rfl
  rw [clearStep, clearStep, thread]
  cases s.clearThread.point with
  | test =>
    simp only
    split <;> rfl
  | erase rubsh => cases rubsh <;> rfl
  | arm =>
    simp only
    split <;> rfl

theorem kafkaStart_part (world : World) :
    (set announced (get announced s) s').kafkaStart world =
      (s.kafkaStart world).map fun t => set announced (get announced t) s' := by
  have thread : (set announced (get announced s) s').kafkaThread = s.kafkaThread := rfl
  simp only [kafkaStart, thread, bind, Except.bind]
  cases uncaught .config (Config.parseFile world s.kafkaThread.confPath) with
  | error e => rfl
  | ok conf =>
    simp only
    cases uncaught .config (loadbase conf) with
    | error e => rfl
    | ok base =>
      cases base with
      | none => rfl
      | some base =>
        simp only
        cases uncaught .exception ((KafkaConsumer.new base.brokers base.group base.topic).init
          world.kafka s.kafkaThread.process.dir) with
        | error e => rfl
        | ok inited =>
          simp only
          split <;> rfl

theorem kafkaFetch_part (world : World) (poll : Poll) (tm : Tm) (consumer : KafkaConsumer) :
    (set announced (get announced s) s').kafkaFetch world poll tm consumer =
      (s.kafkaFetch world poll tm consumer).map fun t => set announced (get announced t) s' := by
  have thread : (set announced (get announced s) s').kafkaThread = s.kafkaThread := rfl
  rw [kafkaFetch, kafkaFetch, thread]
  cases consumer.fetchMsg poll tm s.kafkaThread.process with
  | none => rfl
  | some fetched =>
    simp only
    split
    · rfl
    · simp only [bind, Except.bind]
      cases uncaught .exception (recordUid world.parse fetched.msg) with
      | error e => rfl
      | ok uid => cases uid <;> rfl

theorem kafkaStep_part (world : World) (poll : Poll) (tm : Tm) (now : UInt64) :
    (set announced (get announced s) s').kafkaStep world poll tm now =
      (s.kafkaStep world poll tm now).map fun t => set announced (get announced t) s' := by
  have thread : (set announced (get announced s) s').kafkaThread = s.kafkaThread := rfl
  rw [kafkaStep, kafkaStep, thread]
  cases s.kafkaThread.point with
  | start => exact kafkaStart_part s s' world
  | fetch consumer => exact kafkaFetch_part s s' world poll tm consumer
  | index consumer uid => rfl
  | queue consumer uid => rfl

/-- The threads work on parts. -/
theorem drives (world : World) : parts.Drives ServerStep.part (step world) where
  step_eq {s s'} a same := by
    have put : parts.set a.part (parts.get a.part s) s' = s' := by rw [← same, parts.set_get]
    have part : step world (parts.set a.part (parts.get a.part s) s') a =
        (step world s a).map fun t => parts.set a.part (parts.get a.part t) s' := by
      cases a with
      | flush store => exact flushStep_part s s' store
      | fresh env tmHour => exact freshStep_part s s' env tmHour
      | kafka poll tm now => exact kafkaStep_part s s' world poll tm now
      | clear tmHour now => exact clearStep_part s s' tmHour now
    rwa [put] at part

/-- The steps that a run makes, those on the policies first, then those on the users, then those of
Kafka and of its cleaner in the order in which they fall. -/
def serial (steps : List ServerStep) : List ServerStep :=
  stepsOf ServerStep.part policies steps ++ stepsOf ServerStep.part users steps ++
    stepsOf ServerStep.part announced steps

theorem stepsOf_serial (steps : List ServerStep) (i : ServerPart) :
    stepsOf ServerStep.part i (serial steps) = stepsOf ServerStep.part i steps := by
  simp only [serial, stepsOf_append, stepsOf_stepsOf]
  cases i with
  | policies => simp
  | users => simp
  | announced => simp
  | logics =>
    have none : stepsOf ServerStep.part logics steps = [] :=
      List.filter_eq_nil_iff.mpr fun a _ => by cases a <;> simp [ServerStep.part]
    simp [none]

/-- In whatever order the steps of the threads fall, the server comes to the state that it comes to
where the threads work one after the other, and each part is what the threads that work on it make
of it alone. -/
theorem threads_interleave (world : World) (s t : Server) (steps : List ServerStep) :
    (s.run world steps = .ok t ↔ s.run world (serial steps) = .ok t) ∧
      (s.run world steps = .ok t ↔
        ∀ i, ∃ t', s.run world (stepsOf ServerStep.part i steps) = .ok t' ∧
          parts.get i t' = parts.get i t) :=
  ⟨(drives world).run_congr (fun i => (stepsOf_serial steps i).symm) s t, (drives world).run_iff⟩

end Server

end ABDyeing
