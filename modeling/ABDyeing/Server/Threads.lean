import ABDyeing.Config.Parse
import ABDyeing.Fresh.Brokers
import ABDyeing.HourThread
import ABDyeing.Kafka.Consumer
import ABDyeing.Kafka.Process
import ABDyeing.Lib.Interleaving

/-! The running server: the four threads beside those that answer requests.  A step of a thread goes
up to its next write of something shared, a pointer of the handler or a map behind a lock, so that
the steps of all threads may fall in any order.  A pointer is taken to be assigned at once, although
the code assigns its shared pointers without a lock.  An exception that leaves a thread ends the
process. -/

namespace ABDyeing

open Lib

inductive ServerException
  | config (e : ConfigException)
  | exception (e : Exception)

/-- How the process ends: by `exit`, by an exception that nothing catches, or by undefined behaviour
or an assertion that fails. -/
inductive ProcessEnd
  | exit (status : Int32)
  | uncaught (e : ServerException)
  | undefined

/-- A call on a thread that catches nothing. -/
def uncaught {ε α : Type} (f : ε → ServerException) : Outcome ε α → Except ProcessEnd α
  | .ok a => .ok a
  | .error (.exception e) => .error (.uncaught (f e))
  | .error .undefined => .error .undefined

/-- What the server runs on: the files that it reads, by their names, and its two libraries. -/
structure World where
  files : Bytes → Option Bytes
  parse : Bytes → Option Json
  kafka : KafkaLibrary

/-- A world without files and without Kafka. -/
def World.blank : World where
  files := fun _ => none
  parse := fun _ => none
  kafka := ⟨fun _ _ => none, fun _ _ => none, none, fun _ => 0, fun _ => none, 0⟩

/-- `INV_Config::parseFile` -/
def Config.parseFile (world : World) (sFileName : Bytes) : Outcome ConfigException Config :=
  if sFileName.isEmpty then
    .error (.exception (.config (str "[INV_Config::parseFile]:file name is empty")))
  else
    match world.files sFileName with
    | none =>
      .error (.exception (.config (str "[INV_Config::parseFile]:fopen fail: " ++ sFileName)))
    | some buffer => parseString buffer

/-- Where `Thread::run` is in `flushPolicy`. -/
inductive ThreadPoint
  | whiteList
  | onlinePlugin

/-- The `Thread` of the handler, with the reads of the store that it has made. -/
structure ThreadState where
  point : ThreadPoint
  reads : Nat

/-- Where `FreshThread::run` is: at the top of its loop, between the two halves of the flush on
entry, at the first test, between the two halves of the flush for the hour, or at the second
test. -/
inductive FreshThreadPoint
  | init
  | initPush
  | test
  | push
  | arm

structure FreshThreadState where
  freshHour : Bytes
  freshTags : Bool
  initMysql : Bool
  point : FreshThreadPoint
  reads : Nat

/-- Where `KafkaThread::run` is: before its loop, at the top of it, or in `set` before the index or
before the queue. -/
inductive KafkaThreadPoint
  | start
  | fetch (consumer : KafkaConsumer)
  | index (consumer : KafkaConsumer) (uid : Bytes)
  | queue (consumer : KafkaConsumer) (uid : Bytes)

structure KafkaThreadState where
  confPath : Bytes
  process : Process
  point : KafkaThreadPoint

/-- Where `ClearThread::run` is: at its first test, in `clear` with these users to be erased yet, or
at its second test. -/
inductive ClearThreadPoint
  | test
  | erase (rubsh : List Bytes)
  | arm

structure ClearThreadState where
  freshHour : Bytes
  freshTags : Bool
  point : ClearThreadPoint

/-- The handler's `_kmq` is the queue of its `DyeingCurrentFresh`, whose index is `timeKmsg`. -/
structure Server where
  handler : ABDyeingHandler
  timeKmsg : OrderedMap UInt64 Bytes
  flushThread : ThreadState
  freshThread : FreshThreadState
  kafkaThread : KafkaThreadState
  clearThread : ClearThreadState

/-- A step of one of the threads, with what it finds when it makes it. -/
inductive ServerStep
  | flush (store : Store)
  | fresh (env : FlushEnv) (tmHour : Nat)
  | kafka (poll : Poll) (tm : Tm) (now : UInt64)
  | clear (tmHour : Nat) (now : UInt64)

/-- The uid that `processkafka` sets for a payload, if it sets one. -/
def recordUid (parse : Bytes → Option Json) (msg : Bytes) : Outcome Exception (Option Bytes) :=
  match parse (cString msg) with
  | some (.object members) =>
    match Json.findMember members (str "uid") with
    | none => .ok none
    | some _ => do
      let uid := cString (← (← Json.subscript members (str "uid")).getString)
      let _ ← (← Json.subscript members (str "event_time")).getString
      return some uid
  | _ => .ok none

namespace Server

def currentFresh (s : Server) : CurrentFresh := ⟨s.handler.kq, s.timeKmsg⟩

def setFresh (fresh : CurrentFresh) (s : Server) : Server :=
  { s with handler := { s.handler with kq := fresh.kq }, timeKmsg := fresh.timeKmsg }

/-- The step after half a flush. -/
def flushed (s : Server) (half : Flushed) (next : Nat → Server → Server) :
    Except ProcessEnd Server :=
  match half with
  | (handler, .ok n) => .ok (next n { s with handler := handler })
  | (_, .error e) => uncaught .exception (.error e)

def flushStep (store : Store) (s : Server) : Except ProcessEnd Server :=
  match s.flushThread.point with
  | .whiteList =>
    s.flushed (s.handler.flushWhiteList store s.flushThread.reads) fun n s =>
      { s with flushThread := ⟨.onlinePlugin, n⟩ }
  | .onlinePlugin =>
    s.flushed (s.handler.flushOnline store s.flushThread.reads) fun n s =>
      { s with flushThread := ⟨.whiteList, n⟩ }

/-- The first half of `flushFreshUserPolicy`. -/
def flushFreshUser (env : FlushEnv) (point : FreshThreadPoint) (s : Server) :
    Except ProcessEnd Server :=
  s.flushed (s.handler.flushFreshUser env.store env.freshClient env.time env.clock
    s.freshThread.reads) fun n s =>
      { s with freshThread := { s.freshThread with point, reads := n } }

/-- The second half of `flushFreshUserPolicy`. -/
def flushPushUser (env : FlushEnv) (next : FreshThreadState → FreshThreadState) (s : Server) :
    Except ProcessEnd Server :=
  s.flushed (s.handler.flushPushUser env.store env.pushClient s.freshThread.reads) fun n s =>
    { s with freshThread := next { s.freshThread with reads := n } }

def freshStep (env : FlushEnv) (tmHour : Nat) (s : Server) : Except ProcessEnd Server :=
  match s.freshThread.point with
  | .init =>
    if s.freshThread.initMysql then
      .ok { s with freshThread := { s.freshThread with point := .test } }
    else s.flushFreshUser env .initPush
  | .initPush =>
    s.flushPushUser env fun thread => { thread with initMysql := true, point := .test }
  | .test =>
    if s.freshThread.freshHour = getAbTimeOfHour true tmHour ∧ s.freshThread.freshTags then
      s.flushFreshUser env .push
    else .ok { s with freshThread := { s.freshThread with point := .arm } }
  | .push => s.flushPushUser env fun thread => { thread with freshTags := false, point := .arm }
  | .arm =>
    if s.freshThread.freshHour = getAbTimeOfHour false tmHour then
      .ok { s with freshThread := { s.freshThread with freshTags := true, point := .init } }
    else .ok { s with freshThread := { s.freshThread with point := .init } }

def kafkaPoint (s : Server) (point : KafkaThreadPoint) : Server :=
  { s with kafkaThread := { s.kafkaThread with point } }

/-- `KafkaThread::run` up to its loop. -/
def kafkaStart (world : World) (s : Server) : Except ProcessEnd Server := do
  let conf ← uncaught .config (Config.parseFile world s.kafkaThread.confPath)
  match ← uncaught .config (loadbase conf) with
  | none => .error (.exit (-1))
  | some base =>
    let consumer := KafkaConsumer.new base.brokers base.group base.topic
    let (consumer, ret) ← uncaught .exception (consumer.init world.kafka s.kafkaThread.process.dir)
    if ret ≠ 0 then .error (.exit 1) else return s.kafkaPoint (.fetch consumer)

/-- A round of the loop of `KafkaThread::run`, up to the call of `set`. -/
def kafkaFetch (world : World) (poll : Poll) (tm : Tm) (consumer : KafkaConsumer) (s : Server) :
    Except ProcessEnd Server :=
  match consumer.fetchMsg poll tm s.kafkaThread.process with
  | none => .error .undefined
  | some fetched => do
    let s := { s with kafkaThread := { s.kafkaThread with process := fetched.process } }
    if fetched.ret ≠ 0 then return s.kafkaPoint (.fetch fetched.consumer)
    else
      match ← uncaught .exception (recordUid world.parse fetched.msg) with
      | none => return s.kafkaPoint (.fetch fetched.consumer)
      | some uid => return s.kafkaPoint (.index fetched.consumer uid)

def kafkaStep (world : World) (poll : Poll) (tm : Tm) (now : UInt64) (s : Server) :
    Except ProcessEnd Server :=
  match s.kafkaThread.point with
  | .start => s.kafkaStart world
  | .fetch consumer => s.kafkaFetch world poll tm consumer
  | .index consumer uid =>
    .ok ((s.setFresh (s.currentFresh.setIndex now uid)).kafkaPoint (.queue consumer uid))
  | .queue consumer uid =>
    .ok ((s.setFresh (s.currentFresh.setQueue now uid)).kafkaPoint (.fetch consumer))

def clearStep (tmHour : Nat) (now : UInt64) (s : Server) : Except ProcessEnd Server :=
  match s.clearThread.point with
  | .test =>
    if s.clearThread.freshHour = getAbTimeOfHour true tmHour ∧ s.clearThread.freshTags then
      let cnow := now - CurrentFresh.retention.toInt64.toUInt64
      let rubsh := s.currentFresh.rubsh cnow
      let s := s.setFresh (s.currentFresh.clearScan cnow)
      .ok { s with clearThread := { s.clearThread with point := .erase rubsh } }
    else .ok { s with clearThread := { s.clearThread with point := .arm } }
  | .erase (uid :: rubsh) =>
    let s := s.setFresh (s.currentFresh.clearErase uid)
    .ok { s with clearThread := { s.clearThread with point := .erase rubsh } }
  | .erase [] =>
    .ok { s with clearThread := { s.clearThread with freshTags := false, point := .arm } }
  | .arm =>
    if s.clearThread.freshHour = getAbTimeOfHour false tmHour then
      .ok { s with clearThread := { s.clearThread with freshTags := true, point := .test } }
    else .ok { s with clearThread := { s.clearThread with point := .test } }

def step (world : World) (s : Server) : ServerStep → Except ProcessEnd Server
  | .flush store => s.flushStep store
  | .fresh env tmHour => s.freshStep env tmHour
  | .kafka poll tm now => s.kafkaStep world poll tm now
  | .clear tmHour now => s.clearStep tmHour now

/-- The steps of all threads in the order in which they fall. -/
def run (world : World) (s : Server) (steps : List ServerStep) : Except ProcessEnd Server :=
  runSteps (step world) s steps

/-- A server whose threads have made no step yet, and whose every thread answers requests. -/
def blank (types : List Bytes) : Server where
  handler := { ABDyeingHandler.blank types with logics := fun _ => some ⟨str "fresh"⟩ }
  timeKmsg := ∅
  flushThread := ⟨.whiteList, 0⟩
  freshThread := ⟨str "3", true, false, .init, 0⟩
  kafkaThread := ⟨str "config.conf", ⟨∅, 0⟩, .start⟩
  clearThread := ⟨str "3", true, .test⟩

end Server

end ABDyeing
