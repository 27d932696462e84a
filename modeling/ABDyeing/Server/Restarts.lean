import ABDyeing.Kafka.Offsets
import ABDyeing.Server.Announced
import ABDyeing.Server.Boot

/-! A server that is started again and again in one directory.  All that one life hands to the next
are the files that its Kafka thread has saved there, and an index above sixteen among them leads
every later `Init` past the end of a literal. -/

namespace ABDyeing

open Lib

/-- The greatest partition that `Init` is to restore; an index that is not there reads as zero. -/
def indexRead (dir : Directory) : Int := (atoi (readLine dir offsetTxt)).toInt

namespace KafkaConsumer

/-- An index above sixteen leads `Init` past the end of the literal. -/
theorem restore_past {dir : Directory} (past : 16 < indexRead dir) (lib : KafkaLibrary)
    (consumer : KafkaConsumer) : consumer.restore lib dir = .error .undefined := by
  unfold indexRead at past
  have written : readLine dir offsetTxt ≠ [] := by
    intro none
    rw [none] at past
    exact absurd past (by decide)
  simp only [restore, List.isEmpty_iff, written, if_false]
  rw [readOffsets_undefined _ _ _ _ _ (by omega) (by omega)]
  rfl

/-- `Init` restores the partitions of every other directory. -/
theorem restore_ok_iff (lib : KafkaLibrary) (dir : Directory) (consumer : KafkaConsumer) :
    (∃ restored, consumer.restore lib dir = .ok restored) ↔ indexRead dir ≤ 16 := by
  constructor
  · intro ⟨restored, hrestore⟩
    by_contra past
    rw [restore_past (not_le.mp past)] at hrestore
    cases hrestore
  · intro good
    unfold indexRead at good
    unfold restore
    by_cases none : readLine dir offsetTxt = []
    · simp only [none, List.isEmpty_nil, if_true]
      exact ⟨_, rfl⟩
    · simp only [List.isEmpty_iff, none, if_false]
      rw [readOffsets_eq _ _ _ _ _ (by omega)]
      exact ⟨_, rfl⟩

/-- The message that `FetchMsg` saves, if it does. -/
def fetchSaves (poll : Poll) (tm : Tm) (consumer : KafkaConsumer) : List KafkaMessage :=
  match poll with
  | .message rkmessage => if consumer.inited && tm.saves then [rkmessage] else []
  | _ => []

theorem fetchMsg_process {poll : Poll} {tm : Tm} {consumer : KafkaConsumer} {process : Process}
    {fetched : Fetched} (h : consumer.fetchMsg poll tm process = some fetched) :
    fetched.process = process.saveAll (consumer.fetchSaves poll tm) := by
  unfold fetchMsg at h
  unfold fetchSaves
  split at h
  · rename_i inited
    split at h
    case h_2 => cases h
    case h_3 => cases h
    case h_6 rkmessage =>
      rw [← Option.some.inj h, inited, Bool.true_and]
      cases tm.saves <;> rfl
    all_goals
      rw [← Option.some.inj h]
      rfl
  · rename_i idle
    rw [← Option.some.inj h]
    cases poll with
    | message rkmessage => simp [idle, Process.saveAll]
    | _ => rfl

theorem fetchSaves_of_none {poll : Poll} {tm : Tm} {consumer : KafkaConsumer} {process : Process}
    (h : consumer.fetchMsg poll tm process = none) : consumer.fetchSaves poll tm = [] := by
  unfold fetchMsg at h
  cases poll with
  | message rkmessage => split at h <;> cases h
  | _ => rfl

end KafkaConsumer

namespace Process

/-- The index is the greatest partition that was saved, once one is greater than those before. -/
theorem lookup_saveAll_offsetTxt (process : Process) (rkmessages : List KafkaMessage) :
    (process.saveAll rkmessages).dir.lookup offsetTxt =
      if process.maxPartition < (process.saveAll rkmessages).maxPartition then
        some (toDecimal (process.saveAll rkmessages).maxPartition.toInt)
      else process.dir.lookup offsetTxt := by
  induction rkmessages generalizing process with
  | nil => exact (if_neg Int32.lt_irrefl).symm
  | cons m rkmessages ih =>
    have counted : (process.save m).maxPartition ≤
        ((process.save m).saveAll rkmessages).maxPartition :=
      Int32.not_lt.mp fun less =>
        Int32.lt_irrefl (lt_maxPartition_saveAll.mpr (.inl less))
    have same := save_maxPartition m process
    rw [saveAll_cons, ih, lookup_save_offsetTxt]
    generalize (process.save m).saveAll rkmessages = after at counted ⊢
    by_cases greater : process.maxPartition < m.partition
    · rw [if_pos greater] at same ⊢
      rw [same] at counted ⊢
      rw [if_pos (Int32.lt_of_lt_of_le greater counted)]
      split
      · rfl
      · rename_i rest
        rw [Int32.le_antisymm counted (Int32.not_lt.mp rest)]
    · rw [if_neg greater] at same ⊢
      rw [same]

/-- A process that finds an index up to sixteen leaves one above exactly when it saves a message of
such a partition. -/
theorem indexRead_saveAll {dir : Directory} (good : indexRead dir ≤ 16)
    (rkmessages : List KafkaMessage) :
    16 < indexRead (saveAll ⟨dir, 0⟩ rkmessages).dir ↔ ∃ m ∈ rkmessages, 16 < m.partition := by
  have above {partition : Int32} (low : 0 ≤ partition) :
      partition < (saveAll ⟨dir, 0⟩ rkmessages).maxPartition ↔
        ∃ m ∈ rkmessages, partition < m.partition := by
    rw [lt_maxPartition_saveAll]
    exact or_iff_right (Int32.not_lt.mpr low)
  have index := lookup_saveAll_offsetTxt ⟨dir, 0⟩ rkmessages
  rw [← above (by decide)]
  generalize saveAll ⟨dir, 0⟩ rkmessages = after at index ⊢
  split at index
  · rename_i positive
    have read : indexRead after.dir = after.maxPartition.toInt := by
      rw [indexRead, readLine, index, Option.getD_some, takeWhile_toDecimal]
      exact congrArg Int32.toInt (atoi_toDecimal (Int32.le_of_lt positive))
    rw [read, Int32.lt_iff_toInt_lt]
    rfl
  · rename_i zero
    have read : indexRead after.dir = indexRead dir := congrArg (fun line => (atoi line).toInt)
      (readLine_congr index)
    rw [read]
    exact iff_of_false (by omega) fun past =>
      zero (Int32.lt_trans (show (0 : Int32) < 16 by decide) past)

end Process

namespace Server

variable {world : World} {s t u : Server}

/-- The message that the Kafka thread saves in a step, if it does. -/
def savesNow (s : Server) (a : ServerStep) : List KafkaMessage :=
  match s.kafkaThread.point, a with
  | .fetch consumer, .kafka poll tm _ => consumer.fetchSaves poll tm
  | _, _ => []

/-- The directory after a step, one that ends the process included. -/
def stepDir (s : Server) (a : ServerStep) : Directory :=
  match s.kafkaThread.point, a with
  | .fetch consumer, .kafka poll tm _ =>
    match consumer.fetchMsg poll tm s.kafkaThread.process with
    | none => s.kafkaThread.process.dir
    | some fetched => fetched.process.dir
  | _, _ => s.kafkaThread.process.dir

/-- The directory after these steps, or as many of them as there are until the process ends. -/
def leaves (world : World) (s : Server) : List ServerStep → Directory
  | [] => s.kafkaThread.process.dir
  | a :: steps =>
    match s.step world a with
    | .ok u => u.leaves world steps
    | .error _ => s.stepDir a

/-- The messages that the Kafka thread saves in these steps. -/
def saves (world : World) (s : Server) : List ServerStep → List KafkaMessage
  | [] => []
  | a :: steps => s.savesNow a ++
    match s.step world a with
    | .ok u => u.saves world steps
    | .error _ => []

theorem kafkaFetch_process {poll : Poll} {tm : Tm} {consumer : KafkaConsumer}
    (h : s.kafkaFetch world poll tm consumer = .ok t) :
    t.kafkaThread.process = s.kafkaThread.process.saveAll (consumer.fetchSaves poll tm) := by
  unfold kafkaFetch at h
  split at h
  · cases h
  · rename_i fetched hfetch
    rw [← KafkaConsumer.fetchMsg_process hfetch]
    simp only at h
    split at h
    · rw [← Except.ok.inj h]
      rfl
    · obtain ⟨uid, -, h⟩ := except_bind_eq_ok.mp h
      cases uid with
      | none =>
        rw [← Except.ok.inj h]
        rfl
      | some uid =>
        rw [← Except.ok.inj h]
        rfl

theorem step_process {a : ServerStep} (hstep : s.step world a = .ok u) :
    u.kafkaThread.process = s.kafkaThread.process.saveAll (s.savesNow a) := by
  cases a with
  | kafka poll tm now =>
    rw [step, kafkaStep] at hstep
    unfold savesNow
    cases point : s.kafkaThread.point with
    | start =>
      rw [point] at hstep
      obtain ⟨consumer, -, rfl⟩ := kafkaStart_ok hstep
      rfl
    | fetch consumer =>
      rw [point] at hstep
      exact kafkaFetch_process hstep
    | index consumer uid =>
      rw [point] at hstep
      rw [← Except.ok.inj hstep]
      rfl
    | queue consumer uid =>
      rw [point] at hstep
      rw [← Except.ok.inj hstep]
      rfl
  | _ =>
    have same := kafkaThread_of_ne hstep (by simp)
    rw [same, savesNow]
    · rfl
    · simp

theorem stepDir_eq (s : Server) (a : ServerStep) :
    s.stepDir a = (s.kafkaThread.process.saveAll (s.savesNow a)).dir := by
  unfold stepDir savesNow
  split
  · split
    · rename_i hfetch
      rw [KafkaConsumer.fetchSaves_of_none hfetch]
      rfl
    · rename_i hfetch
      rw [KafkaConsumer.fetchMsg_process hfetch]
  · rfl

theorem leaves_eq (s : Server) (steps : List ServerStep) :
    s.leaves world steps = (s.kafkaThread.process.saveAll (s.saves world steps)).dir := by
  induction steps generalizing s with
  | nil => rfl
  | cons a steps ih =>
    rw [leaves, saves]
    cases hstep : s.step world a with
    | error e => simp only [List.append_nil, stepDir_eq]
    | ok u =>
      simp only [ih, step_process hstep, Process.saveAll, List.foldl_append]

/-- A Kafka thread that finds an index above sixteen does not come to its loop. -/
theorem kafkaStart_past (past : 16 < indexRead s.kafkaThread.process.dir) :
    s.kafkaStart world ≠ .ok t := by
  intro hstart
  obtain ⟨consumer, after, hinit, -⟩ := kafkaStart_init hstart
  obtain ⟨restored, hrestore, -⟩ := KafkaConsumer.init_ok hinit
  exact absurd ((KafkaConsumer.restore_ok_iff _ _ _).mp ⟨restored, hrestore⟩) (by omega)

theorem step_past {a : ServerStep} (started : s.kafkaThread.point = .start)
    (past : 16 < indexRead s.kafkaThread.process.dir) (hstep : s.step world a = .ok u) :
    u.kafkaThread = s.kafkaThread := by
  cases a with
  | kafka poll tm now =>
    rw [step, kafkaStep, started] at hstep
    exact absurd hstep (kafkaStart_past past)
  | _ => exact kafkaThread_of_ne hstep (by simp)

theorem run_past {steps : List ServerStep} (started : s.kafkaThread.point = .start)
    (past : 16 < indexRead s.kafkaThread.process.dir) (hrun : s.run world steps = .ok t) :
    t.kafkaThread = s.kafkaThread :=
  runSteps_invariant (I := fun u => u.kafkaThread = s.kafkaThread)
    (fun _ _ _ _ same hstep => (step_past (by rw [same, started]) (by rwa [same]) hstep).trans same)
    rfl hrun

theorem saves_past {steps : List ServerStep} (started : s.kafkaThread.point = .start)
    (past : 16 < indexRead s.kafkaThread.process.dir) : s.saves world steps = [] := by
  induction steps generalizing s with
  | nil => rfl
  | cons a steps ih =>
    have now : s.savesNow a = [] := by simp only [savesNow, started]
    rw [saves, now, List.nil_append]
    cases hstep : s.step world a with
    | error e => rfl
    | ok u =>
      have same := step_past started past hstep
      exact ih (by rw [same, started]) (by rwa [same])

end Server

/-- One life of the process: what its start finds, and the steps that its threads make. -/
structure Life where
  world : World
  threads : List Nat
  confPath : Bytes
  env : FlushEnv
  steps : List ServerStep

namespace Life

/-- A life that begins in the directory `dir`. -/
def boot (life : Life) (dir : Directory) : Except ProcessEnd Server :=
  ABDyeingHandler.init life.world dir life.threads life.confPath life.env

/-- The directory at its end. -/
def leaves (life : Life) (dir : Directory) : Directory :=
  match life.boot dir with
  | .ok s => s.leaves life.world life.steps
  | .error _ => dir

/-- The messages that its Kafka thread saves. -/
def saves (life : Life) (dir : Directory) : List KafkaMessage :=
  match life.boot dir with
  | .ok s => s.saves life.world life.steps
  | .error _ => []

/-- Its Kafka thread comes to its loop. -/
def Consumes (life : Life) (dir : Directory) : Prop :=
  ∃ s done t, life.boot dir = .ok s ∧ done <+: life.steps ∧ s.run life.world done = .ok t ∧
    t.kafkaThread.point ≠ .start

variable {life : Life} {dir : Directory}

theorem boot_kafkaThread {s : Server} (boot : life.boot dir = .ok s) :
    s.kafkaThread = ⟨life.confPath, ⟨dir, 0⟩, .start⟩ := by
  obtain ⟨conf, booted⟩ := init_ok boot
  exact booted.kafkaThread

theorem leaves_eq (life : Life) (dir : Directory) :
    life.leaves dir = (Process.saveAll ⟨dir, 0⟩ (life.saves dir)).dir := by
  unfold leaves saves
  cases boot : life.boot dir with
  | error e => rfl
  | ok s =>
    simp only [Server.leaves_eq, boot_kafkaThread boot]

theorem index_leaves (good : indexRead dir ≤ 16) :
    16 < indexRead (life.leaves dir) ↔ ∃ m ∈ life.saves dir, 16 < m.partition := by
  rw [leaves_eq]
  exact Process.indexRead_saveAll good _

theorem saves_past (past : 16 < indexRead dir) : life.saves dir = [] := by
  unfold saves
  cases boot : life.boot dir with
  | error e => rfl
  | ok s =>
    have thread := boot_kafkaThread boot
    exact Server.saves_past (by rw [thread]) (by rwa [thread])

theorem leaves_past (past : 16 < indexRead dir) : life.leaves dir = dir := by
  rw [leaves_eq, saves_past past]
  rfl

theorem not_consumes_past (past : 16 < indexRead dir) : ¬life.Consumes dir := by
  rintro ⟨s, done, t, boot, -, hrun, consumes⟩
  have thread := boot_kafkaThread boot
  rw [Server.run_past (by rw [thread]) (by rwa [thread]) hrun, thread] at consumes
  exact consumes rfl

end Life

/-- The directory at the end of lives that follow each other. -/
def leftBy (dir : Directory) (lives : List Life) : Directory :=
  lives.foldl (fun dir life => life.leaves dir) dir

/-- The messages that are saved in these lives. -/
def savedBy (dir : Directory) : List Life → List KafkaMessage
  | [] => []
  | life :: lives => life.saves dir ++ savedBy (life.leaves dir) lives

theorem leftBy_past {dir : Directory} (past : 16 < indexRead dir) (lives : List Life) :
    leftBy dir lives = dir ∧ savedBy dir lives = [] := by
  induction lives with
  | nil => exact ⟨rfl, rfl⟩
  | cons life lives ih =>
    rw [leftBy, List.foldl_cons, savedBy, Life.leaves_past past, Life.saves_past past]
    exact ih

theorem index_leftBy {dir : Directory} (good : indexRead dir ≤ 16) (lives : List Life) :
    16 < indexRead (leftBy dir lives) ↔ ∃ m ∈ savedBy dir lives, 16 < m.partition := by
  induction lives generalizing dir with
  | nil => exact iff_of_false (by simpa [leftBy] using good) (by simp [savedBy])
  | cons life lives ih =>
    rw [leftBy, List.foldl_cons, savedBy, ← leftBy]
    by_cases past : 16 < indexRead (life.leaves dir)
    · obtain ⟨left, saved⟩ := leftBy_past past lives
      rw [left, saved, List.append_nil]
      exact Life.index_leaves good
    · have none := past.imp (Life.index_leaves good).mpr
      rw [ih (by omega)]
      simp only [List.mem_append, or_and_right, exists_or, none, false_or]

/-- An index above sixteen is in the directory from the start, or comes there with a message of such
a partition. -/
theorem index_leftBy_iff (dir : Directory) (lives : List Life) :
    16 < indexRead (leftBy dir lives) ↔
      16 < indexRead dir ∨ ∃ m ∈ savedBy dir lives, 16 < m.partition := by
  by_cases past : 16 < indexRead dir
  · rw [(leftBy_past past lives).1]
    exact iff_of_true past (.inl past)
  · rw [index_leftBy (not_lt.mp past) lives]
    exact (or_iff_right past).symm

/-- It fetches a message of partition 17 at one in the morning. -/
def pastLife : Life where
  world := { World.blank with
    files := fun _ => some brokerDocument.text
    kafka := ⟨fun _ _ => none, fun _ _ => none, none, fun _ => 1, fun _ => none, 0⟩ }
  threads := [0]
  confPath := str "a"
  env := Server.bootEnv
  steps := [.kafka .timeout ⟨1, 0⟩ 0, .kafka (.message ⟨17, 5, []⟩) ⟨1, 0⟩ 0]

end ABDyeing
