import ABDyeing.Server.Threads

/-! What a step of each thread can do. -/

namespace ABDyeing

open Lib

/-- The poll gives a record that has this uid set. -/
def Announces (world : World) (poll : Poll) (uid : Bytes) : Prop :=
  ∃ rkmessage, poll = .message rkmessage ∧
    recordUid world.parse rkmessage.payload = .ok (some uid)

theorem uncaught_eq_ok {ε α : Type} {f : ε → ServerException} {x : Outcome ε α} {a : α} :
    uncaught f x = .ok a ↔ x = .ok a := by
  rcases x with (e | _) | b <;> simp [uncaught]

namespace KafkaConsumer

variable {consumer after : KafkaConsumer}

theorem subscribe_inited {lib : KafkaLibrary} (h : consumer.subscribe lib = (after, 0)) :
    after.inited = true := by
  unfold subscribe at h
  split at h
  · simp at h
  · rw [← (Prod.mk.inj h).1]

/-- An `Init` that succeeds has restored the partitions and subscribed to them. -/
theorem init_ok {lib : KafkaLibrary} {dir : Directory}
    (h : consumer.init lib dir = .ok (after, 0)) :
    ∃ restored, { consumer with inited := false }.restore lib dir = .ok restored ∧
      restored.subscribe lib = (after, 0) := by
  simp only [init] at h
  cases group : lib.confSet (str "group.id") consumer.group with
  | some errstr => simp [group] at h
  | none =>
    cases store : lib.topicConfSet (str "offset.store.method") (str "broker") with
    | some errstr => simp [group, store] at h
    | none =>
      cases create : lib.create with
      | some errstr => simp [group, store, create] at h
      | none =>
        simp only [group, store, create] at h
        split at h
        · simp at h
        · obtain ⟨restored, hrestore, h⟩ := bind_eq_ok.mp h
          exact ⟨restored, hrestore, Except.ok.inj h⟩

theorem fetchMsg_inited {poll : Poll} {tm : Tm} {process : Process} {fetched : Fetched}
    (h : consumer.fetchMsg poll tm process = some fetched) :
    fetched.consumer.inited = consumer.inited := by
  unfold fetchMsg at h
  split at h
  · split at h
    case h_2 => cases h
    case h_3 => cases h
    all_goals rw [← Option.some.inj h]
  · rw [← Option.some.inj h]

/-- An initialized consumer gives the record of the poll. -/
theorem fetchMsg_message (inited : consumer.inited = true) (rkmessage : KafkaMessage) (tm : Tm)
    (process : Process) :
    ∃ process', consumer.fetchMsg (.message rkmessage) tm process =
      some ⟨consumer, process', rkmessage.payload, 0⟩ :=
  ⟨_, if_pos inited⟩

theorem fetchMsg_ret {poll : Poll} {tm : Tm} {process : Process} {fetched : Fetched}
    (h : consumer.fetchMsg poll tm process = some fetched) (good : fetched.ret = 0) :
    ∃ rkmessage, poll = .message rkmessage ∧ fetched.msg = rkmessage.payload := by
  unfold fetchMsg at h
  split at h
  · split at h
    case h_6 rkmessage => exact ⟨rkmessage, rfl, by rw [← Option.some.inj h]⟩
    case h_2 => cases h
    case h_3 => cases h
    all_goals
      rw [← Option.some.inj h] at good
      simp at good
  · rw [← Option.some.inj h] at good
    simp at good

end KafkaConsumer

namespace Server

/-- What a step writes of the handler: one of its plugins, or the queue, or nothing. -/
inductive Writes (handler : ABDyeingHandler) : ABDyeingHandler → Prop
  | nothing : Writes handler handler
  | whiteList (version : DyeingWhiteListPlugin) :
    Writes handler { handler with whiteList := some version }
  | onlinePlugin (version : DyeingOnlinePlugin) :
    Writes handler { handler with onlinePlugin := some version }
  | freshUser (version : DyeingFreshUserPlugin) :
    Writes handler { handler with freshUser := some version }
  | pushUser (version : DyeingPushUserTypePlugin) :
    Writes handler { handler with pushUser := some version }
  | kq (kq : UnorderedMap Bytes UInt64) : Writes handler { handler with kq := kq }

section Writes

variable {world : World} {s t : Server}

theorem flushed_ok {half : Flushed} {next : Nat → Server → Server}
    (h : s.flushed half next = .ok t) : ∃ handler n, t = next n { s with handler := handler } := by
  obtain ⟨handler, (e | _) | n⟩ := half
  · cases h
  · cases h
  · exact ⟨handler, n, (Except.ok.inj h).symm⟩

/-- Half a flush publishes what it loaded, or nothing. -/
theorem flushed_writes {α : Type} {loaded : Outcome Exception ((Bool × α) × Nat)}
    {publish : α → ABDyeingHandler} {next : Nat → Server → Server}
    (writes : ∀ plugin, Writes s.handler (publish plugin))
    (keeps : ∀ n s, (next n s).handler = s.handler)
    (h : s.flushed (s.handler.publishIf loaded publish) next = .ok t) :
    Writes s.handler t.handler := by
  rcases loaded with (e | _) | ⟨⟨_ | _, plugin⟩, n⟩
  · cases h
  · cases h
  · rw [← Except.ok.inj h, keeps]
    exact .nothing
  · rw [← Except.ok.inj h, keeps]
    exact writes plugin

theorem flushStep_writes {store : Store} (h : s.flushStep store = .ok t) :
    Writes s.handler t.handler := by
  unfold flushStep at h
  split at h
  · refine flushed_writes (fun plugin => .whiteList plugin) (fun _ _ => ?_) h
    rfl
  · refine flushed_writes (fun plugin => .onlinePlugin plugin) (fun _ _ => ?_) h
    rfl

theorem flushFreshUser_writes {env : FlushEnv} {point : FreshThreadPoint}
    (h : s.flushFreshUser env point = .ok t) : Writes s.handler t.handler := by
  refine flushed_writes (fun plugin => .freshUser plugin) (fun _ _ => ?_) h
  rfl

theorem flushPushUser_writes {env : FlushEnv} {next : FreshThreadState → FreshThreadState}
    (h : s.flushPushUser env next = .ok t) : Writes s.handler t.handler := by
  refine flushed_writes (fun plugin => .pushUser plugin) (fun _ _ => ?_) h
  rfl

theorem freshStep_writes {env : FlushEnv} {tmHour : Nat} (h : s.freshStep env tmHour = .ok t) :
    Writes s.handler t.handler := by
  unfold freshStep at h
  split at h
  · split at h
    · rw [← Except.ok.inj h]
      exact .nothing
    · exact flushFreshUser_writes h
  · exact flushPushUser_writes h
  · split at h
    · exact flushFreshUser_writes h
    · rw [← Except.ok.inj h]
      exact .nothing
  · exact flushPushUser_writes h
  · split at h
    all_goals
      rw [← Except.ok.inj h]
      exact .nothing

theorem kafkaStart_init (h : s.kafkaStart world = .ok t) :
    ∃ consumer after : KafkaConsumer,
      consumer.init world.kafka s.kafkaThread.process.dir = .ok (after, 0) ∧
        t = s.kafkaPoint (.fetch after) := by
  obtain ⟨conf, -, h⟩ := except_bind_eq_ok.mp h
  obtain ⟨_ | base, -, h⟩ := except_bind_eq_ok.mp h
  · cases h
  · obtain ⟨⟨after, ret⟩, hinit, h⟩ := except_bind_eq_ok.mp h
    simp only at h
    split at h
    · cases h
    · rename_i good
      rw [not_not.mp good] at hinit
      exact ⟨_, after, uncaught_eq_ok.mp hinit, (Except.ok.inj h).symm⟩

theorem kafkaStart_ok (h : s.kafkaStart world = .ok t) :
    ∃ consumer, consumer.inited = true ∧ t = s.kafkaPoint (.fetch consumer) := by
  obtain ⟨consumer, after, hinit, rfl⟩ := kafkaStart_init h
  obtain ⟨restored, -, hsubscribe⟩ := KafkaConsumer.init_ok hinit
  exact ⟨after, KafkaConsumer.subscribe_inited hsubscribe, rfl⟩

/-- What a round of the Kafka thread goes on with: the uid of the record that it got, or the next
round, if it got no record that has a uid set. -/
inductive Fetches (world : World) (poll : Poll) (consumer : KafkaConsumer) : KafkaThreadPoint → Prop
  | again (after : KafkaConsumer) : after.inited = consumer.inited →
    (consumer.inited = true → ∀ uid, ¬ Announces world poll uid) →
    Fetches world poll consumer (.fetch after)
  | announced (after : KafkaConsumer) (uid : Bytes) : after.inited = consumer.inited →
    Announces world poll uid → Fetches world poll consumer (.index after uid)

theorem kafkaFetch_ok {poll : Poll} {tm : Tm} {consumer : KafkaConsumer}
    (h : s.kafkaFetch world poll tm consumer = .ok t) :
    ∃ process point, t = { s with kafkaThread := ⟨s.kafkaThread.confPath, process, point⟩ } ∧
      Fetches world poll consumer point := by
  unfold kafkaFetch at h
  split at h
  · cases h
  · rename_i fetched hfetch
    have inited := KafkaConsumer.fetchMsg_inited hfetch
    have message (ready : consumer.inited = true) {uid : Bytes}
        (announces : Announces world poll uid) :
        fetched.ret = 0 ∧ recordUid world.parse fetched.msg = .ok (some uid) := by
      obtain ⟨rkmessage, rfl, huid⟩ := announces
      obtain ⟨process', hmessage⟩ := KafkaConsumer.fetchMsg_message ready rkmessage tm
        s.kafkaThread.process
      rw [← Option.some.inj (hmessage.symm.trans hfetch)]
      exact ⟨rfl, huid⟩
    simp only at h
    split at h
    · rename_i bad
      have silent (ready : consumer.inited = true) (uid : Bytes) : ¬ Announces world poll uid :=
        fun announces => bad (message ready announces).1
      exact ⟨_, _, (Except.ok.inj h).symm, .again _ inited silent⟩
    · rename_i hret
      obtain ⟨uid, huid, h⟩ := except_bind_eq_ok.mp h
      have record := uncaught_eq_ok.mp huid
      cases uid with
      | none =>
        have silent (ready : consumer.inited = true) (uid : Bytes) :
            ¬ Announces world poll uid := fun announces => by
          have same := (message ready announces).2.symm.trans record
          simp at same
        exact ⟨_, _, (Except.ok.inj h).symm, .again _ inited silent⟩
      | some uid =>
        obtain ⟨rkmessage, hpoll, hmsg⟩ := KafkaConsumer.fetchMsg_ret hfetch (not_not.mp hret)
        have announces : Announces world poll uid :=
          ⟨rkmessage, hpoll, by rw [← hmsg]; exact record⟩
        exact ⟨_, _, (Except.ok.inj h).symm, .announced _ uid inited announces⟩

theorem kafkaStep_writes {poll : Poll} {tm : Tm} {now : UInt64}
    (h : s.kafkaStep world poll tm now = .ok t) : Writes s.handler t.handler := by
  unfold kafkaStep at h
  split at h
  · obtain ⟨consumer, -, rfl⟩ := kafkaStart_ok h
    exact .nothing
  · obtain ⟨process, point, rfl, -⟩ := kafkaFetch_ok h
    exact .nothing
  all_goals
    rw [← Except.ok.inj h]
    exact .kq _

theorem clearStep_writes {tmHour : Nat} {now : UInt64} (h : s.clearStep tmHour now = .ok t) :
    Writes s.handler t.handler := by
  unfold clearStep at h
  split at h
  · split at h
    · rw [← Except.ok.inj h]
      exact .kq _
    · rw [← Except.ok.inj h]
      exact .nothing
  · rw [← Except.ok.inj h]
    exact .kq _
  · rw [← Except.ok.inj h]
    exact .nothing
  · split at h
    all_goals
      rw [← Except.ok.inj h]
      exact .nothing

theorem step_writes {a : ServerStep} (h : s.step world a = .ok t) :
    Writes s.handler t.handler := by
  cases a with
  | flush store => exact flushStep_writes h
  | fresh env tmHour => exact freshStep_writes h
  | kafka poll tm now => exact kafkaStep_writes h
  | clear tmHour now => exact clearStep_writes h

end Writes

/-- What the handler was built with, and no step changes. -/
structure SameBuild (before after : ABDyeingHandler) : Prop where
  types : after.types = before.types
  whitePrefix : after.whitePrefix = before.whitePrefix
  onlinePrefix : after.onlinePrefix = before.onlinePrefix
  freshPrefix : after.freshPrefix = before.freshPrefix
  logics : after.logics = before.logics

theorem Writes.sameBuild {before after : ABDyeingHandler} (writes : Writes before after) :
    SameBuild before after := by
  cases writes <;> exact ⟨rfl, rfl, rfl, rfl, rfl⟩

theorem SameBuild.trans {a b c : ABDyeingHandler} (h : SameBuild a b) (h' : SameBuild b c) :
    SameBuild a c :=
  ⟨h'.types.trans h.types, h'.whitePrefix.trans h.whitePrefix,
    h'.onlinePrefix.trans h.onlinePrefix, h'.freshPrefix.trans h.freshPrefix,
    h'.logics.trans h.logics⟩

theorem run_sameBuild {world : World} {s t : Server} {steps : List ServerStep}
    (hrun : s.run world steps = .ok t) : SameBuild s.handler t.handler :=
  runSteps_invariant (I := fun u => SameBuild s.handler u.handler)
    (fun _ _ _ _ same hstep => same.trans (step_writes hstep).sameBuild) ⟨rfl, rfl, rfl, rfl, rfl⟩
    hrun

end Server

end ABDyeing
