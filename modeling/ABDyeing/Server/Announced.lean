import ABDyeing.Precedence
import ABDyeing.Server.Schedules
import ABDyeing.Server.Writes

/-! Which users the queue holds.  In every run it holds the users of the records that the Kafka
thread got, and no others, but for those that the cleaner took out.  So the users that are looked up
as new are those of the table and those that Kafka announced. -/

namespace ABDyeing

open Lib

/-- The consumer of the thread is initialized, once there is one. -/
def KafkaThreadPoint.Inited : KafkaThreadPoint → Prop
  | .start => True
  | .fetch consumer => consumer.inited = true
  | .index consumer _ => consumer.inited = true
  | .queue consumer _ => consumer.inited = true

theorem Announces.unique {world : World} {poll : Poll} {uid uid' : Bytes}
    (h' : Announces world poll uid') (h : Announces world poll uid) : uid' = uid := by
  obtain ⟨rkmessage', hpoll', huid'⟩ := h'
  obtain ⟨rkmessage, hpoll, huid⟩ := h
  obtain rfl := Poll.message.inj (hpoll'.symm.trans hpoll)
  simpa using huid'.symm.trans huid

namespace Server

variable {world : World} {uid : Bytes} {s t u : Server}

/-- The user that the Kafka thread is about to set. -/
def setting (s : Server) : Option Bytes :=
  match s.kafkaThread.point with
  | .index _ uid => some uid
  | .queue _ uid => some uid
  | _ => none

/-- The users that the cleaner is about to erase. -/
def erasing (s : Server) : List Bytes :=
  match s.clearThread.point with
  | .erase rubsh => rubsh
  | _ => []

/-- In the queue, or about to be. -/
def Recorded (uid : Bytes) (s : Server) : Prop :=
  uid ∈ s.handler.kq ∨ s.setting = some uid

/-- The step is one in which the Kafka thread gets a record with this uid. -/
def HearsNow (world : World) (uid : Bytes) (s : Server) : ServerStep → Prop
  | .kafka poll _ _ => Announces world poll uid ∧ ∃ consumer, s.kafkaThread.point = .fetch consumer
  | _ => False

/-- In one of these steps the Kafka thread gets a record with this uid. -/
def Hears (world : World) (uid : Bytes) : Server → List ServerStep → Prop :=
  Occurs (step world) (HearsNow world uid)

/-- In no state of the run is the user about to be erased. -/
def Spared (world : World) (uid : Bytes) (s : Server) (steps : List ServerStep) : Prop :=
  ∀ done u, done <+: steps → s.run world done = .ok u → uid ∉ u.erasing

theorem Spared.head {steps : List ServerStep} (spared : Spared world uid s steps) :
    uid ∉ s.erasing :=
  spared [] s List.nil_prefix rfl

theorem Spared.tail {a : ServerStep} {steps : List ServerStep} {next : Server}
    (spared : Spared world uid s (a :: steps)) (hstep : s.step world a = .ok next) :
    Spared world uid next steps := fun done u early hrun =>
  spared (a :: done) u (List.cons_prefix_cons.mpr ⟨rfl, early⟩)
    (runSteps_cons.mpr ⟨next, hstep, hrun⟩)

/-- What a step of the Kafka thread does to the user that it works on. -/
theorem kafkaStep_recorded {poll : Poll} {tm : Tm} {now : UInt64}
    (inited : s.kafkaThread.point.Inited) (hstep : s.kafkaStep world poll tm now = .ok u) :
    u.kafkaThread.point.Inited ∧
      (Recorded uid u ↔ Recorded uid s ∨ HearsNow world uid s (.kafka poll tm now)) := by
  unfold kafkaStep at hstep
  simp only [Recorded, HearsNow, setting]
  cases point : s.kafkaThread.point with
  | start =>
    rw [point] at hstep
    obtain ⟨consumer, ready, rfl⟩ := kafkaStart_ok hstep
    exact ⟨ready, by simp [kafkaPoint]⟩
  | fetch consumer =>
    rw [point] at hstep inited
    obtain ⟨process, next, rfl, fetches⟩ := kafkaFetch_ok hstep
    cases fetches with
    | again after same silent =>
      exact ⟨same.trans inited, by simp [silent inited uid]⟩
    | announced after uid' same announces =>
      refine ⟨same.trans inited, ?_⟩
      have only : Announces world poll uid ↔ uid' = uid :=
        ⟨announces.unique, fun h => h ▸ announces⟩
      simp [only]
  | index consumer uid' =>
    rw [point] at hstep inited
    rw [← Except.ok.inj hstep]
    exact ⟨inited, by simp [kafkaPoint, setFresh, currentFresh, CurrentFresh.setIndex]⟩
  | queue consumer uid' =>
    rw [point] at hstep inited
    rw [← Except.ok.inj hstep]
    refine ⟨inited, ?_⟩
    simp [kafkaPoint, setFresh, currentFresh, CurrentFresh.setQueue, or_comm, eq_comm]

/-- A step of the cleaner takes out the first of the users that it is about to erase, if any. -/
theorem clearStep_recorded {tmHour : Nat} {now : UInt64}
    (hstep : s.clearStep tmHour now = .ok u) :
    u.kafkaThread = s.kafkaThread ∧ (uid ∈ u.handler.kq → uid ∈ s.handler.kq) ∧
      (uid ∉ s.erasing → (uid ∈ u.handler.kq ↔ uid ∈ s.handler.kq)) := by
  unfold clearStep at hstep
  unfold erasing
  cases point : s.clearThread.point with
  | test =>
    simp only [point] at hstep
    split at hstep
    · rw [← Except.ok.inj hstep]
      exact ⟨rfl, id, fun _ => Iff.rfl⟩
    · rw [← Except.ok.inj hstep]
      exact ⟨rfl, id, fun _ => Iff.rfl⟩
  | erase rubsh =>
    cases rubsh with
    | nil =>
      simp only [point] at hstep
      rw [← Except.ok.inj hstep]
      exact ⟨rfl, id, fun _ => Iff.rfl⟩
    | cons first rubsh =>
      simp only [point] at hstep
      rw [← Except.ok.inj hstep]
      have queue : uid ∈ (s.currentFresh.clearErase first).kq ↔ uid ≠ first ∧ uid ∈ s.handler.kq :=
        CurrentFresh.mem_clearErase.trans (by simp [currentFresh])
      refine ⟨rfl, fun h => (queue.mp h).2, fun spared => queue.trans ?_⟩
      exact and_iff_right fun same => spared (same ▸ List.mem_cons_self)
  | arm =>
    simp only [point] at hstep
    split at hstep
    · rw [← Except.ok.inj hstep]
      exact ⟨rfl, id, fun _ => Iff.rfl⟩
    · rw [← Except.ok.inj hstep]
      exact ⟨rfl, id, fun _ => Iff.rfl⟩

/-- Only its own steps move the Kafka thread. -/
theorem kafkaThread_of_ne {a : ServerStep} (hstep : s.step world a = .ok u)
    (other : ∀ poll tm now, a ≠ .kafka poll tm now) : u.kafkaThread = s.kafkaThread := by
  cases a with
  | flush store =>
    have same := (drives world).get_of_ne hstep (i := .announced) (by simp [ServerStep.part])
    exact congrArg AnnouncedPart.kafkaThread same
  | fresh env tmHour =>
    have same := (drives world).get_of_ne hstep (i := .announced) (by simp [ServerStep.part])
    exact congrArg AnnouncedPart.kafkaThread same
  | kafka poll tm now => exact absurd rfl (other poll tm now)
  | clear tmHour now => exact (@clearStep_recorded [] _ _ _ _ hstep).1

/-- What one step does to a user: only a record brings it in, and only the cleaner takes it out. -/
theorem step_recorded {a : ServerStep} (inited : s.kafkaThread.point.Inited)
    (hstep : s.step world a = .ok u) :
    u.kafkaThread.point.Inited ∧
      (Recorded uid u → Recorded uid s ∨ HearsNow world uid s a) ∧
      (uid ∉ s.erasing → (Recorded uid u ↔ Recorded uid s ∨ HearsNow world uid s a)) := by
  have idle (thread : u.kafkaThread = s.kafkaThread) (queue : u.handler.kq = s.handler.kq) :
      u.kafkaThread.point.Inited ∧ (Recorded uid u ↔ Recorded uid s) := by
    simp only [Recorded, setting, thread, queue]
    exact ⟨inited, trivial⟩
  have elsewhere (other : a.part ≠ .announced) :
      u.kafkaThread.point.Inited ∧ (Recorded uid u ↔ Recorded uid s) := by
    have same := (drives world).get_of_ne hstep (Ne.symm other)
    exact idle (congrArg AnnouncedPart.kafkaThread same)
      (congrArg (fun x : AnnouncedPart => x.fresh.kq) same)
  cases a with
  | flush store =>
    obtain ⟨inited', same⟩ := elsewhere (by simp [ServerStep.part])
    simp only [HearsNow, or_false]
    exact ⟨inited', same.mp, fun _ => same⟩
  | fresh env tmHour =>
    obtain ⟨inited', same⟩ := elsewhere (by simp [ServerStep.part])
    simp only [HearsNow, or_false]
    exact ⟨inited', same.mp, fun _ => same⟩
  | kafka poll tm now =>
    obtain ⟨inited', same⟩ := kafkaStep_recorded inited hstep
    exact ⟨inited', same.mp, fun _ => same⟩
  | clear tmHour now =>
    obtain ⟨thread, fewer, same⟩ := @clearStep_recorded uid _ _ _ _ hstep
    simp only [HearsNow, or_false, Recorded, setting, thread]
    exact ⟨inited, Or.imp_left fewer, fun spared => or_congr_left (same spared)⟩

theorem run_inited {steps : List ServerStep} (inited : s.kafkaThread.point.Inited)
    (hrun : s.run world steps = .ok t) : t.kafkaThread.point.Inited :=
  runSteps_invariant (I := fun u => u.kafkaThread.point.Inited)
    (fun _ _ _ _ inited hstep => (@step_recorded world [] _ _ _ inited hstep).1) inited hrun

/-- The users recorded at the end of a run were recorded at its start or heard of in it, and all of
these are recorded at its end that the cleaner has spared. -/
theorem run_recorded {steps : List ServerStep} (inited : s.kafkaThread.point.Inited)
    (hrun : s.run world steps = .ok t) :
    (Recorded uid t → Recorded uid s ∨ Hears world uid s steps) ∧
      (Spared world uid s steps → (Recorded uid t ↔ Recorded uid s ∨ Hears world uid s steps)) := by
  induction steps generalizing s with
  | nil =>
    obtain rfl : s = t := Except.ok.inj hrun
    simp [Hears, not_occurs_nil]
  | cons a steps ih =>
    obtain ⟨next, hstep, hrest⟩ := runSteps_cons.mp hrun
    obtain ⟨inited', sound, exact'⟩ := @step_recorded world uid _ _ _ inited hstep
    obtain ⟨soundRest, exactRest⟩ := ih inited' hrest
    rw [Hears, occurs_cons hstep, ← or_assoc]
    exact ⟨fun h => (soundRest h).imp_left sound, fun spared =>
      (exactRest (spared.tail hstep)).trans (or_congr_left (exact' spared.head))⟩

section Names

open DyeingLogic

variable {logic : DyeingLogic} {published : Published} {faults : Faults} {app type : Bytes}

theorem dyeingApp_fresh (quiet : ∀ lookup, faults lookup = none)
    (other : ¬(type = str "biz" ∧ app = str "noticias")) :
    logic.dyeingApp published faults uid app type =
        .ok (app ++ str "_" ++ logic.freshProductSuffix) ↔
      InFreshTable published uid ∨ uid ∈ published.kq := by
  classical
  have longer : app ≠ app ++ str "_" ++ logic.freshProductSuffix := fun same => by
    have length := congrArg List.length same
    simp [str] at length
  rw [dyeingApp, if_neg other, Faults.at_of_none (quiet _), handleFreshUser_eq]
  by_cases table : InFreshTable published uid
  · simp [table, bind, Except.bind, pure, Except.pure]
  · by_cases queued : uid ∈ published.kq
    · simp [table, queued, bind, Except.bind, pure, Except.pure]
    · simpa [table, queued, bind, Except.bind, pure, Except.pure] using longer

theorem dyeingApp_new (quiet : ∀ lookup, faults lookup = none)
    (push : handlePushUser published.pushUser uid (str "noticias") = none) :
    logic.dyeingApp published faults uid (str "noticias") (str "biz") = .ok (str "noticias_new") ↔
      ¬InFreshTable published uid ∧ uid ∈ published.kq := by
  classical
  rw [dyeingApp, if_pos ⟨rfl, rfl⟩, Faults.at_of_none (quiet _), Faults.at_of_none (quiet _), push,
    handleFreshUser_eq]
  by_cases table : InFreshTable published uid
  · simp [table, bind, Except.bind, pure, Except.pure]
    decide
  · by_cases queued : uid ∈ published.kq
    · simp [table, queued, bind, Except.bind, pure, Except.pure]
      decide
    · simp [table, queued, bind, Except.bind, pure, Except.pure]
      decide

end Names

/-- From an empty queue on, in every order of the steps, a user is looked up as a new one only if
the table lists it or the Kafka thread got a record of it; and one that the cleaner has spared is
looked up so as soon as it is set. -/
theorem new_users_announced {steps : List ServerStep} {logic : DyeingLogic} {published : Published}
    {faults : Faults} (inited : s.kafkaThread.point.Inited) (idle : s.setting = none)
    (empty : s.handler.kq = ∅) (hrun : s.run world steps = .ok t)
    (queue : published.kq = t.handler.kq) (quiet : ∀ lookup, faults lookup = none) :
    let name := logic.dyeingApp published faults uid
    let fresh (app type : Bytes) := name app type = .ok (app ++ str "_" ++ logic.freshProductSuffix)
    let new := name (str "noticias") (str "biz") = .ok (str "noticias_new")
    let table := DyeingLogic.InFreshTable published uid
    let heard := Hears world uid s steps
    let single := DyeingLogic.handlePushUser published.pushUser uid (str "noticias") = none
    (∀ app type, ¬(type = str "biz" ∧ app = str "noticias") → fresh app type → table ∨ heard) ∧
      (single → new → ¬table ∧ heard) ∧
      (Spared world uid s steps → t.setting ≠ some uid →
        (∀ app type, ¬(type = str "biz" ∧ app = str "noticias") → table ∨ heard → fresh app type) ∧
        (single → ¬table ∧ heard → new)) := by
  intro name fresh new table heard single
  have nothing : ¬Recorded uid s := by simp [Recorded, idle, empty, Finmap.notMem_empty]
  obtain ⟨sound, exact'⟩ := @run_recorded world uid _ _ _ inited hrun
  have onlyHeard (queued : uid ∈ published.kq) : heard :=
    (sound (.inl (queue ▸ queued))).resolve_left nothing
  refine ⟨fun app type other h => ?_, fun push h => ?_, fun spared set =>
    ⟨fun app type other h => ?_, fun push h => ?_⟩⟩
  · exact ((dyeingApp_fresh quiet other).mp h).imp_right onlyHeard
  · exact ((dyeingApp_new quiet push).mp h).imp_right onlyHeard
  all_goals
    have queued (h : heard) : uid ∈ published.kq :=
      queue ▸ ((exact' spared).mpr (.inr h)).resolve_right set
  · exact (dyeingApp_fresh quiet other).mpr (h.imp_right queued)
  · exact (dyeingApp_new quiet push).mpr (h.imp_right queued)

/-- A world in which every record announces the user `u`. -/
def announcing : World :=
  { World.blank with
    parse := fun _ => some (.object
      [(str "uid", .string (str "u")), (str "event_time", .string (str "now"))]) }

def listening : Server :=
  { blank [str "t"] with
    kafkaThread := ⟨str "config.conf", ⟨∅, 0⟩, .fetch ⟨[], [], [], true, [], [], none⟩⟩ }

theorem new_users_announced_example :
    let poll := Poll.message ⟨0, 7, str "record"⟩
    let steps := [.kafka poll ⟨9, 30⟩ 1, .flush (steady ABDyeingHandler.typeNode),
      .kafka .timeout ⟨9, 30⟩ 2, .kafka .timeout ⟨9, 30⟩ 3]
    ∃ t, listening.run announcing steps = .ok t ∧
      (⟨str "fresh"⟩ : DyeingLogic).dyeingApp t.handler.toPublished (fun _ => none) (str "u")
        (str "noticias") (str "biz") = .ok (str "noticias_new") ∧
      Hears announcing (str "u") listening steps := by
  intro poll steps
  obtain ⟨t, hrun, hnew, hpush⟩ : ∃ t, listening.run announcing steps = .ok t ∧
      (⟨str "fresh"⟩ : DyeingLogic).dyeingApp t.handler.toPublished (fun _ => none) (str "u")
        (str "noticias") (str "biz") = .ok (str "noticias_new") ∧
      DyeingLogic.handlePushUser t.handler.pushUser (str "u") (str "noticias") = none :=
    ⟨_, rfl, rfl, rfl⟩
  have inited : listening.kafkaThread.point.Inited := rfl
  have only := (new_users_announced inited rfl rfl hrun rfl fun _ => rfl).2.1 hpush hnew
  exact ⟨t, hrun, hnew, only.2⟩

end Server

end ABDyeing
