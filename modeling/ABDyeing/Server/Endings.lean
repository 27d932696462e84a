import ABDyeing.Server.Announced
import ABDyeing.Server.InForce

/-! How a running server comes to its end.  Once its Kafka thread is in its loop, and as long as the
configuration store and the database answer, it ends by what Kafka delivers and by nothing else. -/

namespace ABDyeing

open Lib

/-- A record that fails an assertion: it has a `uid`, but not both the `uid` and the `event_time` as
strings. -/
def FatalRecord (parse : Bytes → Option Json) (msg : Bytes) : Prop :=
  ∃ members value, ParsesTo parse msg members ∧
    Json.findMember members (str "uid") = some value ∧
    ¬∃ uid time, value = .string uid ∧
      Json.findMember members (str "event_time") = some (.string time)

/-- What a poll delivers fails an assertion. -/
def Fatal (world : World) : Poll → Prop
  | .unknownPartition => True
  | .unknownTopic => True
  | .message rkmessage => FatalRecord world.parse rkmessage.payload
  | _ => False

/-- The store and the database answer a flush of the users: both connections are made, and no record
that comes lacks a column. -/
def FlushEnv.Answers (env : FlushEnv) (freshPrefix : Bytes) : Prop :=
  ∃ node, env.store.Holds node ∧
    Harmless env.freshClient (storedDBConf node freshPrefix) (DyeingFreshUserPlugin.sql env.time)
      DyeingFreshUserPlugin.columns ∧
    Harmless env.pushClient (storedDBConf node freshPrefix) DyeingPushUserTypePlugin.sql
      DyeingPushUserTypePlugin.columns

theorem recordUid_fatal {parse : Bytes → Option Json} {msg : Bytes}
    (fatal : FatalRecord parse msg) : recordUid parse msg = .error .undefined := by
  obtain ⟨members, value, parses, huid, notBoth⟩ := fatal
  unfold ParsesTo at parses
  have found : Json.subscript members (str "uid") = .ok value := subscript_eq_ok.mpr huid
  simp only [recordUid, parses, huid, found, bind, Except.bind]
  cases value with
  | string uid =>
    simp only [Json.getString]
    cases htime : Json.findMember members (str "event_time") with
    | none => simp only [Json.subscript, htime]
    | some time =>
      cases time with
      | string time => exact absurd ⟨uid, time, rfl, htime⟩ notBoth
      | _ => simp only [Json.subscript, htime]
  | _ => rfl

theorem recordUid_ok {parse : Bytes → Option Json} {msg : Bytes} (good : ¬FatalRecord parse msg) :
    ∃ uid, recordUid parse msg = .ok uid := by
  unfold recordUid
  split
  · rename_i members parses
    cases huid : Json.findMember members (str "uid") with
    | none => exact ⟨none, rfl⟩
    | some value =>
      by_cases both : ∃ uid time, value = .string uid ∧
          Json.findMember members (str "event_time") = some (.string time)
      · obtain ⟨uid, time, rfl, htime⟩ := both
        refine ⟨some (cString uid), ?_⟩
        simp only [Json.subscript, huid, htime, Json.getString, bind, Except.bind]
        rfl
      · exact absurd ⟨members, value, parses, huid, both⟩ good
  · exact ⟨none, rfl⟩

namespace Server

variable {world : World} {s t : Server}

/-- The store and the database answer the step. -/
def Answered (freshPrefix : Bytes) : ServerStep → Prop
  | .flush store => ∃ node, store.Holds node
  | .fresh env _ => env.Answers freshPrefix
  | _ => True

/-- The Kafka thread is delivered what fails an assertion. -/
def Struck (world : World) (s : Server) : ServerStep → Prop
  | .kafka poll _ _ => (∃ consumer, s.kafkaThread.point = .fetch consumer) ∧ Fatal world poll
  | _ => False

/-- The Kafka thread is in its loop, with its consumer initialized. -/
structure Consuming (s : Server) : Prop where
  started : s.kafkaThread.point ≠ .start
  inited : s.kafkaThread.point.Inited

theorem flushed_goes {half : Flushed} {n : Nat} (next : Nat → Server → Server)
    (answered : half.2 = .ok n) : ∃ handler, s.flushed half next =
      .ok (next n { s with handler := handler }) := by
  obtain ⟨handler, result⟩ := half
  obtain rfl : result = .ok n := answered
  exact ⟨handler, rfl⟩

theorem freshStep_goes {env : FlushEnv} (answers : env.Answers s.handler.freshPrefix)
    (tmHour : Nat) : ∃ u, s.freshStep env tmHour = .ok u := by
  obtain ⟨node, holds, freshUser, pushUser⟩ := answers
  have first (point : FreshThreadPoint) : ∃ u, s.flushFreshUser env point = .ok u := by
    obtain ⟨users, hflush, -⟩ := ABDyeingHandler.flushFreshUser_of_harmless holds s.handler
      env.clock freshUser s.freshThread.reads
    obtain ⟨handler, goes⟩ := flushed_goes (s := s) _ (congrArg Prod.snd hflush)
    exact ⟨_, goes⟩
  have second (next : FreshThreadState → FreshThreadState) :
      ∃ u, s.flushPushUser env next = .ok u := by
    obtain ⟨types, hflush, -⟩ := ABDyeingHandler.flushPushUser_of_harmless holds s.handler pushUser
      s.freshThread.reads
    obtain ⟨handler, goes⟩ := flushed_goes (s := s) _ (congrArg Prod.snd hflush)
    exact ⟨_, goes⟩
  unfold freshStep
  cases s.freshThread.point with
  | init =>
    simp only
    split
    · exact ⟨_, rfl⟩
    · exact first .initPush
  | initPush => exact second _
  | test =>
    simp only
    split
    · exact first .push
    · exact ⟨_, rfl⟩
  | push => exact second _
  | arm =>
    simp only
    split <;> exact ⟨_, rfl⟩

theorem clearStep_goes (s : Server) (tmHour : Nat) (now : UInt64) :
    ∃ u, s.clearStep tmHour now = .ok u := by
  unfold clearStep
  cases s.clearThread.point with
  | test =>
    simp only
    split <;> exact ⟨_, rfl⟩
  | erase rubsh => cases rubsh <;> exact ⟨_, rfl⟩
  | arm =>
    simp only
    split <;> exact ⟨_, rfl⟩

section Fetch

variable {poll : Poll} {tm : Tm} {consumer : KafkaConsumer} (inited : consumer.inited = true)

include inited

theorem kafkaFetch_fatal (fatal : Fatal world poll) :
    s.kafkaFetch world poll tm consumer = .error .undefined := by
  unfold kafkaFetch
  cases poll with
  | unknownPartition => simp only [KafkaConsumer.fetchMsg, inited, if_true]
  | unknownTopic => simp only [KafkaConsumer.fetchMsg, inited, if_true]
  | message rkmessage =>
    obtain ⟨process', hfetch⟩ := KafkaConsumer.fetchMsg_message inited rkmessage tm
      s.kafkaThread.process
    have record : recordUid world.parse rkmessage.payload = .error .undefined :=
      recordUid_fatal fatal
    simp only [hfetch, record]
    rfl
  | timeout => exact fatal.elim
  | partitionEof partition offset => exact fatal.elim
  | failed errstr => exact fatal.elim

theorem kafkaFetch_goes (good : ¬Fatal world poll) :
    ∃ u, s.kafkaFetch world poll tm consumer = .ok u := by
  unfold kafkaFetch
  cases poll with
  | unknownPartition => exact absurd trivial good
  | unknownTopic => exact absurd trivial good
  | message rkmessage =>
    obtain ⟨process', hfetch⟩ := KafkaConsumer.fetchMsg_message inited rkmessage tm
      s.kafkaThread.process
    obtain ⟨uid, record⟩ := recordUid_ok good
    simp only [hfetch, record]
    cases uid <;> exact ⟨_, rfl⟩
  | timeout =>
    simp only [KafkaConsumer.fetchMsg, inited, if_true]
    exact ⟨_, rfl⟩
  | partitionEof partition offset =>
    simp only [KafkaConsumer.fetchMsg, inited, if_true]
    exact ⟨_, rfl⟩
  | failed errstr =>
    simp only [KafkaConsumer.fetchMsg, inited, if_true]
    exact ⟨_, rfl⟩

end Fetch

/-- A step fails where the Kafka thread is struck. -/
theorem step_struck {a : ServerStep} (consuming : s.Consuming) (struck : Struck world s a) :
    s.step world a = .error .undefined := by
  cases a with
  | kafka poll tm now =>
    obtain ⟨⟨consumer, point⟩, fatal⟩ := struck
    have inited := consuming.inited
    rw [point] at inited
    rw [step, kafkaStep, point]
    exact kafkaFetch_fatal inited fatal
  | _ => exact struck.elim

/-- Any other step goes on. -/
theorem step_goes {a : ServerStep} (consuming : s.Consuming)
    (answered : Answered s.handler.freshPrefix a) (spared : ¬Struck world s a) :
    ∃ u, s.step world a = .ok u := by
  cases a with
  | flush store =>
    obtain ⟨node, holds⟩ := answered
    exact ⟨_, flushStep_of_holds holds⟩
  | fresh env tmHour => exact freshStep_goes answered tmHour
  | kafka poll tm now =>
    have inited := consuming.inited
    rw [step, kafkaStep]
    cases point : s.kafkaThread.point with
    | start => exact absurd point consuming.started
    | fetch consumer =>
      rw [point] at inited
      exact kafkaFetch_goes inited fun fatal => spared ⟨⟨consumer, point⟩, fatal⟩
    | index consumer uid => exact ⟨_, rfl⟩
    | queue consumer uid => exact ⟨_, rfl⟩
  | clear tmHour now => exact clearStep_goes s tmHour now

theorem consuming_step {a : ServerStep} {u : Server} (consuming : s.Consuming)
    (hstep : s.step world a = .ok u) : u.Consuming := by
  refine ⟨?_, (@step_recorded world [] _ _ _ consuming.inited hstep).1⟩
  have idle (other : ∀ poll tm now, a ≠ .kafka poll tm now) : u.kafkaThread.point ≠ .start := by
    rw [kafkaThread_of_ne hstep other]
    exact consuming.started
  cases a with
  | kafka poll tm now =>
    rw [step, kafkaStep] at hstep
    cases point : s.kafkaThread.point with
    | start => exact absurd point consuming.started
    | fetch consumer =>
      rw [point] at hstep
      obtain ⟨process, next, rfl, fetches⟩ := kafkaFetch_ok hstep
      cases fetches <;> simp
    | index consumer uid =>
      rw [point] at hstep
      rw [← Except.ok.inj hstep]
      simp [kafkaPoint]
    | queue consumer uid =>
      rw [point] at hstep
      rw [← Except.ok.inj hstep]
      simp [kafkaPoint]
  | _ => exact idle (by simp)

/-- While the store and the database answer, a server whose Kafka thread is in its loop comes to its
end in a run of its four threads if and only if Kafka delivers an unknown partition or topic, or a
record with a `uid` that is not a string or without a string for its `event_time` beside it; one
such record takes down all threads. -/
theorem ends_by_delivery {steps : List ServerStep} (consuming : s.Consuming)
    (answered : ∀ a ∈ steps, Answered s.handler.freshPrefix a) :
    (Occurs (step world) (Struck world) s steps → s.run world steps = .error .undefined) ∧
      (¬Occurs (step world) (Struck world) s steps → ∃ t, s.run world steps = .ok t) :=
  runSteps_ends (I := fun u => u.Consuming ∧ u.handler.freshPrefix = s.handler.freshPrefix)
    (fun _ _ _ kept struck => step_struck kept.1 struck)
    (fun u a ha kept spared => by
      have answers := answered a ha
      rw [← kept.2] at answers
      obtain ⟨next, hstep⟩ := step_goes kept.1 answers spared
      have same := (step_writes hstep).sameBuild.freshPrefix
      exact ⟨next, hstep, consuming_step kept.1 hstep, same.trans kept.2⟩)
    ⟨consuming, rfl⟩

theorem freshEnv_answers (freshPrefix : Bytes) : freshEnv.Answers freshPrefix := by
  refine ⟨fun _ => [], steady_holds fun _ => [], ⟨⟨_, rfl⟩, ?_⟩, ⟨_, rfl⟩, ?_⟩
  · rintro records ⟨db, hconnect, hquery⟩
    obtain rfl := Except.ok.inj hconnect
    rw [← Except.ok.inj hquery]
    decide
  · rintro records ⟨db, hconnect, hquery⟩
    obtain rfl := Except.ok.inj hconnect
    rw [← Except.ok.inj hquery]
    decide

theorem ends_by_delivery_example :
    listening.run World.blank [.flush (steady ABDyeingHandler.typeNode), .fresh freshEnv 9,
      .kafka .unknownTopic ⟨0, 0⟩ 0, .clear 0 0] = .error .undefined := by
  have consuming : listening.Consuming := ⟨by simp [listening], rfl⟩
  have struck : Occurs (step World.blank) (Struck World.blank) listening
      [.flush (steady ABDyeingHandler.typeNode), .fresh freshEnv 9, .kafka .unknownTopic ⟨0, 0⟩ 0,
        .clear 0 0] :=
    .later rfl (.later rfl (.now ⟨⟨_, rfl⟩, trivial⟩))
  refine (ends_by_delivery consuming ?_).1 struck
  intro a ha
  simp only [List.mem_cons, List.not_mem_nil, or_false] at ha
  rcases ha with rfl | rfl | rfl | rfl
  · exact ⟨_, steady_holds ABDyeingHandler.typeNode⟩
  · exact freshEnv_answers _
  · trivial
  · trivial

end Server

end ABDyeing
