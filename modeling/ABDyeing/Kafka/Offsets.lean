import ABDyeing.Kafka.Consumer

/-! What a later `Init` makes of the files that `FetchMsg` saved.  The offsets go to the files
`offset.partition0`, `offset.partition1` and so on, but `Init` looks for them under what is left of
the literal `offset.partition` when its first characters are dropped, and the index file
`offset.txt` is written only for a partition greater than zero. -/

namespace ABDyeing

open Lib

theorem partitionFile_ne_offsetTxt (partition : Int32) : partitionFile partition ≠ offsetTxt := by
  intro same
  have start : (partitionFile partition).take 8 = offsetPartition.take 8 :=
    List.take_append_of_le_length (by decide)
  rw [same] at start
  exact absurd start (by decide)

/-- No name that `Init` reads an offset from is one that `FetchMsg` writes an offset to. -/
theorem drop_ne_partitionFile (pSize : Nat) (partition : Int32) :
    offsetPartition.drop pSize ≠ partitionFile partition := by
  intro same
  have lengths := congrArg List.length same
  have digits := List.length_pos_iff.mpr (toDecimal_ne_nil partition.toInt)
  simp only [partitionFile, List.length_drop, List.length_append] at lengths
  omega

theorem drop_ne_offsetTxt (pSize : Nat) : offsetPartition.drop pSize ≠ offsetTxt := by
  intro same
  have lengths := congrArg List.length same
  have whole : offsetPartition.length = 16 := by decide
  have index : offsetTxt.length = 10 := by decide
  rw [List.length_drop] at lengths
  obtain rfl : pSize = 6 := by omega
  exact absurd same (by decide)

theorem readLine_congr {dir dir' : Directory} {fileName : Bytes}
    (same : dir.lookup fileName = dir'.lookup fileName) :
    readLine dir fileName = readLine dir' fileName := by
  rw [readLine, readLine, same]

namespace Process

/-- The files of a process that began in `dir` without an index: the index names the greatest
partition once it is positive, and every file that is not one of the process's own is as before. -/
structure Saved (dir : Directory) (process : Process) : Prop where
  index : process.dir.lookup offsetTxt =
    if 0 < process.maxPartition then some (toDecimal process.maxPartition.toInt) else none
  others : ∀ fileName, fileName ≠ offsetTxt → (∀ partition, fileName ≠ partitionFile partition) →
    process.dir.lookup fileName = dir.lookup fileName

theorem saved_start {dir : Directory} (fresh : dir.lookup offsetTxt = none) :
    Saved dir ⟨dir, 0⟩ where
  index := by simpa using fresh
  others _ _ _ := rfl

theorem save_maxPartition (rkmessage : KafkaMessage) (process : Process) :
    (process.save rkmessage).maxPartition =
      if process.maxPartition < rkmessage.partition then rkmessage.partition
      else process.maxPartition := by
  unfold save
  split <;> rfl

theorem lookup_save_of_ne {rkmessage : KafkaMessage} {process : Process} {fileName : Bytes}
    (hindex : fileName ≠ offsetTxt) (hfile : fileName ≠ partitionFile rkmessage.partition) :
    (process.save rkmessage).dir.lookup fileName = process.dir.lookup fileName := by
  unfold save
  split
  · rw [Finmap.lookup_insert_of_ne _ hindex, Finmap.lookup_insert_of_ne _ hfile]
  · rw [Finmap.lookup_insert_of_ne _ hfile]

theorem lookup_save_offsetTxt (rkmessage : KafkaMessage) (process : Process) :
    (process.save rkmessage).dir.lookup offsetTxt =
      if process.maxPartition < rkmessage.partition then
        some (toDecimal rkmessage.partition.toInt)
      else process.dir.lookup offsetTxt := by
  unfold save
  split
  · rw [Finmap.lookup_insert]
  · rw [Finmap.lookup_insert_of_ne _ (partitionFile_ne_offsetTxt _).symm]

theorem Saved.save {dir : Directory} {process : Process} (saved : Saved dir process)
    (hmax : 0 ≤ process.maxPartition) (rkmessage : KafkaMessage) :
    Saved dir (process.save rkmessage) where
  index := by
    rw [lookup_save_offsetTxt, save_maxPartition, saved.index]
    by_cases greater : process.maxPartition < rkmessage.partition
    · have positive := Int32.lt_of_le_of_lt hmax greater
      simp only [greater, positive, if_true]
    · simp only [greater, if_false]
  others fileName hindex hfile := by
    rw [lookup_save_of_ne hindex (hfile _), saved.others fileName hindex hfile]

def saveAll (process : Process) (rkmessages : List KafkaMessage) : Process :=
  rkmessages.foldl (fun process rkmessage => process.save rkmessage) process

@[simp] theorem saveAll_cons (process : Process) (rkmessage : KafkaMessage)
    (rkmessages : List KafkaMessage) :
    process.saveAll (rkmessage :: rkmessages) = (process.save rkmessage).saveAll rkmessages := rfl

theorem maxPartition_le_save (process : Process) (rkmessage : KafkaMessage) :
    process.maxPartition ≤ (process.save rkmessage).maxPartition := by
  rw [save_maxPartition]
  split
  · rename_i greater
    exact Int32.le_of_lt greater
  · exact Int32.le_refl _

theorem Saved.saveAll {dir : Directory} {process : Process} (saved : Saved dir process)
    (hmax : 0 ≤ process.maxPartition) (rkmessages : List KafkaMessage) :
    Saved dir (process.saveAll rkmessages) := by
  induction rkmessages generalizing process with
  | nil => exact saved
  | cons rkmessage rkmessages ih =>
    exact ih (saved.save hmax rkmessage)
      (Int32.le_trans hmax (maxPartition_le_save process rkmessage))

/-- `max_partition` is the greatest of its start and the partitions saved since. -/
theorem lt_maxPartition_saveAll {process : Process} {rkmessages : List KafkaMessage}
    {partition : Int32} :
    partition < (process.saveAll rkmessages).maxPartition ↔
      partition < process.maxPartition ∨ ∃ m ∈ rkmessages, partition < m.partition := by
  induction rkmessages generalizing process with
  | nil => simp [Process.saveAll]
  | cons rkmessage rkmessages ih =>
    rw [saveAll_cons, ih, save_maxPartition, List.exists_mem_cons_iff, ← or_assoc]
    apply or_congr_left
    split
    · rename_i greater
      exact ⟨Or.inr, fun h => h.elim (Int32.lt_trans · greater) id⟩
    · rename_i greater
      exact ⟨Or.inl, fun h => h.elim id (Int32.lt_of_lt_of_le · (Int32.not_lt.mp greater))⟩

end Process

def offsetRead (dir : Directory) (pSize : Nat) : Int64 :=
  (atoi (readLine dir (offsetPartition.drop pSize))).toInt64

def entryRead (dir : Directory) (topic : Bytes) (pSize : Nat) : TopicPartition :=
  ⟨topic, Int32.ofNat pSize, offsetRead dir pSize⟩

namespace KafkaConsumer

theorem readOffsets_eq (dir : Directory) (topic : Bytes) (count pSize : Nat)
    (topics : List TopicPartition) (bound : pSize + count ≤ 17) :
    readOffsets dir topic count pSize topics =
      .ok (topics ++ (List.range' pSize count).map (entryRead dir topic)) := by
  induction count generalizing pSize topics with
  | zero => simp [readOffsets]
  | succ count ih =>
    have literal : literalFrom pSize = .ok (offsetPartition.drop pSize) :=
      if_pos (show pSize ≤ 16 by omega)
    rw [readOffsets, literal, List.range'_succ, List.map_cons]
    change readOffsets dir topic count (pSize + 1) (topics ++ [entryRead dir topic pSize]) = _
    rw [ih _ _ (by omega), List.append_assoc, List.singleton_append]

/-- From the eighteenth partition on the pointer is past the literal. -/
theorem readOffsets_undefined (dir : Directory) (topic : Bytes) (count pSize : Nat)
    (topics : List TopicPartition) (left : 0 < count) (bound : 17 < pSize + count) :
    readOffsets dir topic count pSize topics = .error .undefined := by
  induction count generalizing pSize topics with
  | zero => omega
  | succ count ih =>
    by_cases inside : pSize ≤ 16
    · have literal : literalFrom pSize = .ok (offsetPartition.drop pSize) := if_pos inside
      rw [readOffsets, literal]
      exact ih _ _ (by omega) (by omega)
    · have literal : literalFrom pSize = .error .undefined := if_neg inside
      rw [readOffsets, literal]
      rfl

structure Accepted (lib : KafkaLibrary) (consumer : KafkaConsumer) : Prop where
  group : lib.confSet (str "group.id") consumer.group = none
  store : lib.topicConfSet (str "offset.store.method") (str "broker") = none
  created : lib.create = none
  brokers : lib.brokersAdd (brokerList consumer.brokers) ≠ 0

@[simp] theorem subscribe_topics (lib : KafkaLibrary) (consumer : KafkaConsumer) :
    (consumer.subscribe lib).1.topics = consumer.topics := by
  unfold subscribe
  split <;> rfl

theorem init_topics {lib : KafkaLibrary} {dir : Directory} {consumer : KafkaConsumer}
    (accepted : Accepted lib consumer) (property : List TopicPartition → Prop) :
    (∃ consumer' ret, consumer.init lib dir = .ok (consumer', ret) ∧ property consumer'.topics) ↔
      ∃ consumer', { consumer with inited := false }.restore lib dir = .ok consumer' ∧
        property consumer'.topics := by
  simp only [init, accepted.group, accepted.store, accepted.created, accepted.brokers, if_false]
  cases { consumer with inited := false }.restore lib dir with
  | error e => simp [bind, Except.bind]
  | ok filled =>
    simp only [bind, Except.bind, pure, Except.pure, Except.ok.injEq, Prod.ext_iff,
      exists_eq_left']
    simp

theorem fetchAll_messages {consumer : KafkaConsumer} (ready : consumer.inited = true)
    (process : Process) (fetched : List (KafkaMessage × Tm))
    (window : ∀ f ∈ fetched, f.2.saves = true) :
    fetchAll consumer process (fetched.map fun f => (.message f.1, f.2)) =
      some (consumer, process.saveAll (fetched.map Prod.fst)) := by
  induction fetched generalizing process with
  | nil => rfl
  | cons f fetched ih =>
    have saves := window f (by simp)
    simp only [List.map_cons, fetchAll, fetchMsg, ready, saves, if_true, Process.saveAll_cons]
    exact ih _ fun g hg => window g (by simp [hg])

section Restore

variable {dir : Directory} {process : Process} (lib : KafkaLibrary) (consumer : KafkaConsumer)

theorem restore_unsaved (saved : process.Saved dir) (unsaved : ¬ 0 < process.maxPartition) :
    consumer.restore lib process.dir =
      .ok { consumer with topics := [⟨consumer.topic, -1, lib.offsetInvalid⟩] } := by
  have line : readLine process.dir offsetTxt = [] := by
    rw [readLine, saved.index, if_neg unsaved]
    rfl
  simp [restore, line]

theorem restore_readOffsets (saved : process.Saved dir) (positive : 0 < process.maxPartition) :
    consumer.restore lib process.dir = (do
      let topics ← readOffsets process.dir consumer.topic
        (process.maxPartition.toInt + 1).toNat 0 []
      return { consumer with topics := topics, assigned := some topics }) := by
  have line : readLine process.dir offsetTxt = toDecimal process.maxPartition.toInt := by
    rw [readLine, saved.index, if_pos positive, Option.getD_some, takeWhile_toDecimal]
    rfl
  have nonempty : (toDecimal process.maxPartition.toInt).isEmpty = false := by
    simpa using toDecimal_ne_nil _
  simp only [restore, line, nonempty, atoi_toDecimal (Int32.le_of_lt positive)]
  rfl

theorem entryRead_saved (saved : process.Saved dir) (topic : Bytes) :
    entryRead process.dir topic = entryRead dir topic := by
  funext pSize
  have same := saved.others (offsetPartition.drop pSize) (drop_ne_offsetTxt pSize)
    (drop_ne_partitionFile pSize)
  rw [entryRead, entryRead, offsetRead, offsetRead, readLine_congr same]

theorem restore_saved (saved : process.Saved dir) (positive : 0 < process.maxPartition)
    (bound : process.maxPartition ≤ 16) :
    ∃ filled, consumer.restore lib process.dir = .ok filled ∧ filled.topics =
      (List.range' 0 (process.maxPartition.toInt + 1).toNat).map
        (entryRead dir consumer.topic) := by
  have hbound := Int32.le_iff_toInt_le.mp bound
  have sixteen : (16 : Int32).toInt = 16 := by decide
  rw [restore_readOffsets lib consumer saved positive, readOffsets_eq _ _ _ _ _ (by omega),
    entryRead_saved saved]
  exact ⟨_, rfl, rfl⟩

theorem restore_undefined (saved : process.Saved dir) (bound : 16 < process.maxPartition) :
    consumer.restore lib process.dir = .error .undefined := by
  have hbound := Int32.lt_iff_toInt_lt.mp bound
  have sixteen : (16 : Int32).toInt = 16 := by decide
  have positive : 0 < process.maxPartition := Int32.lt_trans (by decide) bound
  rw [restore_readOffsets lib consumer saved positive,
    readOffsets_undefined _ _ _ _ _ (by omega) (by omega)]
  rfl

end Restore

theorem mem_entries {dir : Directory} {topic : Bytes} {partition pMax : Int32} {offset : Int64}
    (low : 0 ≤ partition) (high : partition ≤ pMax) :
    ⟨topic, partition, offset⟩ ∈
        (List.range' 0 (pMax.toInt + 1).toNat).map (entryRead dir topic) ↔
      offset = offsetRead dir partition.toNatClampNeg := by
  have hlow := Int32.le_iff_toInt_le.mp low
  have hhigh := Int32.le_iff_toInt_le.mp high
  have hnat : (partition.toNatClampNeg : Int) = partition.toInt := Int.toNat_of_nonneg hlow
  simp only [List.mem_map, List.mem_range'_1, entryRead, TopicPartition.mk.injEq, true_and]
  constructor
  · intro ⟨pSize, bound, same, hoffset⟩
    have small := pMax.toInt_lt
    have hsize : partition.toInt = pSize := by
      rw [← same, Int32.toInt_ofNat_of_lt (by omega)]
    obtain rfl : pSize = partition.toNatClampNeg := by omega
    exact hoffset.symm
  · intro hoffset
    exact ⟨partition.toNatClampNeg, by omega, Int32.ofNat_toNatClampNeg _ low, hoffset.symm⟩

end KafkaConsumer

def lastOffset (rkmessages : List KafkaMessage) (partition : Int32) : Option Int64 :=
  lastValue (rkmessages.map fun m => (m.partition, m.offset)) partition

theorem partitionFile_inj {p q : Int32} : partitionFile p = partitionFile q ↔ p = q := by
  constructor
  · intro same
    exact Int32.toInt_inj.mp (toDecimal_injective (List.append_cancel_left same))
  · intro same
    rw [same]

theorem Process.lookup_save_partitionFile (rkmessage : KafkaMessage) (process : Process)
    (partition : Int32) :
    (process.save rkmessage).dir.lookup (partitionFile partition) =
      if rkmessage.partition = partition then some (toDecimal rkmessage.offset.toInt)
      else process.dir.lookup (partitionFile partition) := by
  split
  · rename_i same
    subst same
    unfold save
    split
    · rw [Finmap.lookup_insert_of_ne _ (partitionFile_ne_offsetTxt _), Finmap.lookup_insert]
    · rw [Finmap.lookup_insert]
  · rename_i other
    exact lookup_save_of_ne (partitionFile_ne_offsetTxt _)
      fun same => other (partitionFile_inj.mp same).symm

/-- What `FetchMsg` writes is right: each partition's file holds the offset fetched last for it. -/
theorem Process.lookup_saveAll_partitionFile (rkmessages : List KafkaMessage) (process : Process)
    (partition : Int32) :
    (process.saveAll rkmessages).dir.lookup (partitionFile partition) =
      ((lastOffset rkmessages partition).map fun offset => toDecimal offset.toInt).or
        (process.dir.lookup (partitionFile partition)) := by
  induction rkmessages generalizing process with
  | nil => rfl
  | cons m rkmessages ih =>
    rw [saveAll_cons, ih, lookup_save_partitionFile, lastOffset, lastOffset, List.map_cons,
      lastValue_cons, Option.map_or, Option.or_assoc]
    congr 1
    split <;> rfl

theorem lastOffset_of_mem {rkmessages : List KafkaMessage} {m : KafkaMessage}
    (hm : m ∈ rkmessages) : ∃ offset, lastOffset rkmessages m.partition = some offset := by
  rw [← Option.ne_none_iff_exists', lastOffset, ne_eq, lastValue_eq_none, not_not, List.map_map]
  exact List.mem_map_of_mem hm

theorem mem_of_lastOffset {rkmessages : List KafkaMessage} {partition : Int32} {offset : Int64}
    (hlast : lastOffset rkmessages partition = some offset) :
    ∃ m ∈ rkmessages, m.partition = partition := by
  have hmem : partition ∈ (rkmessages.map fun m => (m.partition, m.offset)).map Prod.fst := by
    by_contra absent
    rw [lastOffset, lastValue_eq_none.mpr absent] at hlast
    exact absurd hlast (by simp)
  rw [List.map_map] at hmem
  exact List.mem_map.mp hmem

def Resumes (topic : Bytes) (rkmessages : List KafkaMessage) (topics : List TopicPartition) :
    Prop :=
  ∀ partition offset, lastOffset rkmessages partition = some offset →
    ⟨topic, partition, offset⟩ ∈ topics

/-- Where `Init` resumes: some partition is greater than zero, none is greater than sixteen, and
each was left at the offset that `Init` reads from a file that was there before. -/
def Restorable (dir : Directory) (rkmessages : List KafkaMessage) : Prop :=
  rkmessages = [] ∨
    (∃ m ∈ rkmessages, 0 < m.partition) ∧ (∀ m ∈ rkmessages, m.partition ≤ 16) ∧
      ∀ partition offset, lastOffset rkmessages partition = some offset →
        offset = offsetRead dir partition.toNatClampNeg

namespace KafkaConsumer

theorem resumes_unsaved {topic : Bytes} {rkmessages : List KafkaMessage} {offset : Int64}
    (partitions : ∀ m ∈ rkmessages, 0 ≤ m.partition) :
    Resumes topic rkmessages [⟨topic, -1, offset⟩] ↔ rkmessages = [] := by
  constructor
  · intro resumes
    refine List.eq_nil_iff_forall_not_mem.mpr fun m hm => ?_
    obtain ⟨last, hlast⟩ := lastOffset_of_mem hm
    have entry := resumes m.partition last hlast
    simp only [List.mem_singleton, TopicPartition.mk.injEq, true_and] at entry
    exact absurd (entry.1 ▸ partitions m hm) (by decide)
  · intro empty partition last hlast
    obtain ⟨m, hm, _⟩ := mem_of_lastOffset hlast
    simp [empty] at hm

theorem resumes_saved {dir : Directory} {topic : Bytes} {rkmessages : List KafkaMessage}
    {pMax : Int32} (partitions : ∀ m ∈ rkmessages, 0 ≤ m.partition)
    (bound : ∀ m ∈ rkmessages, m.partition ≤ pMax) :
    Resumes topic rkmessages
        ((List.range' 0 (pMax.toInt + 1).toNat).map (entryRead dir topic)) ↔
      ∀ partition offset, lastOffset rkmessages partition = some offset →
        offset = offsetRead dir partition.toNatClampNeg := by
  refine forall₂_congr fun partition offset => forall_congr' fun hlast => ?_
  obtain ⟨m, hm, rfl⟩ := mem_of_lastOffset hlast
  exact mem_entries (partitions m hm) (bound m hm)

theorem restore_resumes_iff (lib : KafkaLibrary) (consumer : KafkaConsumer) {dir : Directory}
    {rkmessages : List KafkaMessage} (fresh : dir.lookup offsetTxt = none)
    (partitions : ∀ m ∈ rkmessages, 0 ≤ m.partition) :
    (∃ filled, consumer.restore lib (Process.saveAll ⟨dir, 0⟩ rkmessages).dir = .ok filled ∧
        Resumes consumer.topic rkmessages filled.topics) ↔
      Restorable dir rkmessages := by
  have saved := (Process.saved_start fresh).saveAll (Int32.le_refl 0) rkmessages
  have above (partition : Int32) (low : 0 ≤ partition) :
      partition < (Process.saveAll ⟨dir, 0⟩ rkmessages).maxPartition ↔
        ∃ m ∈ rkmessages, partition < m.partition := by
    rw [Process.lt_maxPartition_saveAll]
    exact or_iff_right (Int32.not_lt.mpr low)
  generalize Process.saveAll ⟨dir, 0⟩ rkmessages = process at saved above ⊢
  by_cases positive : 0 < process.maxPartition
  · obtain ⟨m, hm, hpositive⟩ := (above 0 (Int32.le_refl 0)).mp positive
    rw [Restorable, or_iff_right (List.ne_nil_of_mem hm),
      and_iff_right (show ∃ m ∈ rkmessages, 0 < m.partition from ⟨m, hm, hpositive⟩)]
    by_cases bound : process.maxPartition ≤ 16
    · have small : ∀ m ∈ rkmessages, m.partition ≤ 16 := fun m hm =>
        Int32.not_lt.mp fun past =>
          Int32.not_lt.mpr bound ((above 16 (by decide)).mpr ⟨m, hm, past⟩)
      have listed : ∀ m ∈ rkmessages, m.partition ≤ process.maxPartition := fun m hm =>
        Int32.not_lt.mp fun past => Int32.lt_irrefl
          ((above _ (Int32.le_of_lt positive)).mpr ⟨m, hm, past⟩)
      obtain ⟨filled, hfilled, topics⟩ := restore_saved lib consumer saved positive bound
      rw [and_iff_right small, ← resumes_saved partitions listed, ← topics, hfilled]
      simp
    · have past := Int32.not_le.mp bound
      obtain ⟨m', hm', hpast⟩ := (above 16 (by decide)).mp past
      rw [restore_undefined lib consumer saved past]
      constructor
      · intro ⟨filled, undefined, _⟩
        exact absurd undefined (by simp)
      · intro ⟨small, _⟩
        exact absurd (small m' hm') (Int32.not_le.mpr hpast)
  · have unsaved : ¬ ∃ m ∈ rkmessages, 0 < m.partition :=
      fun some => positive ((above 0 (Int32.le_refl 0)).mpr some)
    rw [restore_unsaved lib consumer saved positive, Restorable,
      or_iff_left fun restorable => unsaved restorable.1]
    simp only [Except.ok.injEq, exists_eq_left']
    exact resumes_unsaved partitions

/-- A process fetches messages, and a later `Init` in its directory resumes every partition where
they left it. -/
def Restores (lib : KafkaLibrary) (writer reader : KafkaConsumer) (dir : Directory)
    (fetched : List (KafkaMessage × Tm)) : Prop :=
  ∃ writer' process,
    writer.fetchAll ⟨dir, 0⟩ (fetched.map fun f => (.message f.1, f.2)) =
      some (writer', process) ∧
    ∃ reader' ret, reader.init lib process.dir = .ok (reader', ret) ∧
      Resumes reader.topic (fetched.map Prod.fst) reader'.topics

/-- Offsets that are saved are restored exactly where the messages are `Restorable`. -/
theorem restores_iff (lib : KafkaLibrary) (writer reader : KafkaConsumer) (dir : Directory)
    (fetched : List (KafkaMessage × Tm)) (ready : writer.inited = true)
    (accepted : Accepted lib reader) (fresh : dir.lookup offsetTxt = none)
    (partitions : ∀ f ∈ fetched, 0 ≤ f.1.partition) (window : ∀ f ∈ fetched, f.2.saves = true) :
    Restores lib writer reader dir fetched ↔ Restorable dir (fetched.map Prod.fst) := by
  have nonneg : ∀ m ∈ fetched.map Prod.fst, 0 ≤ m.partition := by
    simpa using partitions
  rw [← restore_resumes_iff lib { reader with inited := false } fresh nonneg,
    ← init_topics accepted (Resumes reader.topic (fetched.map Prod.fst)), Restores,
    fetchAll_messages ready _ fetched window]
  simp

def acceptingLibrary : KafkaLibrary where
  confSet _ _ := none
  topicConfSet _ _ := none
  create := none
  brokersAdd _ := 1
  subscribe _ := none
  offsetInvalid := -1001

def exampleConsumer : KafkaConsumer :=
  { new [(str "kafka1", 9092)] (str "abtest") (str "fresh") with inited := true }

theorem restores_iff_example :
    Restores acceptingLibrary exampleConsumer exampleConsumer ∅ [(⟨1, 0, []⟩, ⟨1, 0⟩)] ↔
      Restorable ∅ [⟨1, 0, []⟩] :=
  restores_iff acceptingLibrary exampleConsumer exampleConsumer ∅ [(⟨1, 0, []⟩, ⟨1, 0⟩)] rfl
    ⟨rfl, rfl, rfl, by decide⟩ rfl (by decide) (by decide)

/-- Partition 1 is left at offset 5 and resumed at offset 0. -/
theorem not_restores_example :
    ¬ Restores acceptingLibrary exampleConsumer exampleConsumer ∅ [(⟨1, 5, []⟩, ⟨1, 0⟩)] := by
  intro ⟨writer, process, hfetch, reader, ret, hinit, resumes⟩
  obtain ⟨_, rfl⟩ : exampleConsumer = writer ∧ Process.save ⟨1, 5, []⟩ ⟨∅, 0⟩ = process :=
    Prod.mk.inj (Option.some.inj hfetch)
  have topics : [⟨str "fresh", 0, 0⟩, ⟨str "fresh", 1, 0⟩] = reader.topics :=
    congrArg KafkaConsumer.topics (Prod.mk.inj (Except.ok.inj hinit)).1
  have entry := resumes 1 5 rfl
  rw [← topics] at entry
  exact absurd entry (by decide)

end KafkaConsumer

end ABDyeing
