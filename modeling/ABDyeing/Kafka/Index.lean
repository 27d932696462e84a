import ABDyeing.Kafka.Offsets
import ABDyeing.Lib.Run

/-! The index file `offset.txt` over the runs of processes that follow each other in one directory,
and the offsets of a partition.  The index is written where a partition is greater than the static
`max_partition`, which every process starts at zero, and the offsets are read back as 32-bit
integers. -/

namespace ABDyeing

open Lib

inductive IndexAction
  | fetchMsg (rkmessage : KafkaMessage) (tm : Tm)
  | restart

namespace Process

/-- What a message or a restart makes of the process; `consumer` is the one that fetches. -/
def after (consumer : KafkaConsumer) (process : Process) : IndexAction → Process
  | .fetchMsg rkmessage tm =>
    match consumer.fetchMsg (.message rkmessage) tm process with
    | none => process
    | some fetched => fetched.process
  | .restart => { process with maxPartition := 0 }

/-- There is a file with an offset of the partition. -/
def HasSaved (process : Process) (partition : Int32) : Prop := partitionFile partition ∈ process.dir

/-- The index holds the greatest partition that is saved, where there is one. -/
def Indexed (process : Process) : Prop :=
  (∃ partition, process.HasSaved partition) →
    ∃ greatest, process.dir.lookup offsetTxt = some (toDecimal greatest.toInt) ∧
      process.HasSaved greatest ∧ ∀ partition, process.HasSaved partition → partition ≤ greatest

/-- A save in the window keeps the index right: a partition that is greater than all that this
process has saved is not less than one saved before, and any other one is not the first. -/
def KeepsIndex (process : Process) : IndexAction → Prop
  | .fetchMsg rkmessage tm => tm.saves = true →
    (process.maxPartition < rkmessage.partition →
      ∀ partition, process.HasSaved partition → partition ≤ rkmessage.partition) ∧
    (rkmessage.partition ≤ process.maxPartition → ∃ partition, process.HasSaved partition)
  | .restart => True

/-- What holds in every directory that the processes alone have written to: the index names a
positive partition that is saved, and `max_partition` is one as well unless it is zero. -/
structure OwnFiles (process : Process) : Prop where
  nonneg : 0 ≤ process.maxPartition
  counted : process.maxPartition = 0 ∨ process.HasSaved process.maxPartition
  index : ∀ text, process.dir.lookup offsetTxt = some text →
    ∃ partition, 0 < partition ∧ text = toDecimal partition.toInt ∧ process.HasSaved partition

theorem ownFiles_start {dir : Directory} (fresh : dir.lookup offsetTxt = none) :
    OwnFiles ⟨dir, 0⟩ where
  nonneg := Int32.le_refl 0
  counted := .inl rfl
  index text h := by rw [fresh] at h; cases h

theorem hasSaved_save {rkmessage : KafkaMessage} {process : Process} {partition : Int32} :
    (process.save rkmessage).HasSaved partition ↔
      partition = rkmessage.partition ∨ process.HasSaved partition := by
  simp only [HasSaved, ← Finmap.lookup_isSome, lookup_save_partitionFile]
  by_cases same : rkmessage.partition = partition
  · simp [same]
  · simp [same, Ne.symm same]

theorem OwnFiles.save {process : Process} (own : process.OwnFiles) (rkmessage : KafkaMessage) :
    (process.save rkmessage).OwnFiles where
  nonneg := Int32.le_trans own.nonneg (maxPartition_le_save process rkmessage)
  counted := by
    rw [hasSaved_save, save_maxPartition]
    split
    · exact .inr (.inl rfl)
    · exact own.counted.imp id Or.inr
  index := by
    intro text h
    rw [lookup_save_offsetTxt] at h
    split at h
    · rename_i greater
      exact ⟨rkmessage.partition, Int32.lt_of_le_of_lt own.nonneg greater,
        (Option.some.inj h).symm, hasSaved_save.mpr (.inl rfl)⟩
    · obtain ⟨partition, positive, htext, saved⟩ := own.index text h
      exact ⟨partition, positive, htext, hasSaved_save.mpr (.inr saved)⟩

theorem after_message {consumer : KafkaConsumer} (ready : consumer.inited = true)
    (process : Process) (rkmessage : KafkaMessage) (tm : Tm) :
    process.after consumer (.fetchMsg rkmessage tm) =
      if tm.saves then process.save rkmessage else process := by
  rw [after, KafkaConsumer.fetchMsg, if_pos ready]

theorem OwnFiles.after {consumer : KafkaConsumer} (ready : consumer.inited = true)
    (process : Process) (action : IndexAction) (own : process.OwnFiles) :
    (process.after consumer action).OwnFiles := by
  cases action with
  | fetchMsg rkmessage tm =>
    rw [after_message ready]
    split
    · exact own.save rkmessage
    · exact own
  | restart => exact ⟨Int32.le_refl 0, .inl rfl, own.index⟩

theorem toDecimal_toInt_inj {p q : Int32} : toDecimal p.toInt = toDecimal q.toInt ↔ p = q :=
  ⟨fun same => Int32.toInt_inj.mp (toDecimal_injective same), fun same => by rw [same]⟩

/-- The index is rewritten, and right where nothing greater was saved before. -/
theorem indexed_save_greater {process : Process} {rkmessage : KafkaMessage}
    (greater : process.maxPartition < rkmessage.partition) :
    (process.save rkmessage).Indexed ↔
      ∀ partition, process.HasSaved partition → partition ≤ rkmessage.partition := by
  have index : (process.save rkmessage).dir.lookup offsetTxt =
      some (toDecimal rkmessage.partition.toInt) := by
    rw [lookup_save_offsetTxt, if_pos greater]
  constructor
  · intro indexed partition saved
    obtain ⟨greatest, hgreatest, -, bound⟩ := indexed ⟨_, hasSaved_save.mpr (.inl rfl)⟩
    rw [index, Option.some.injEq, toDecimal_toInt_inj] at hgreatest
    rw [hgreatest]
    exact bound partition (hasSaved_save.mpr (.inr saved))
  · intro bound _
    refine ⟨rkmessage.partition, index, hasSaved_save.mpr (.inl rfl), fun partition saved => ?_⟩
    rcases hasSaved_save.mp saved with rfl | before
    · exact Int32.le_refl _
    · exact bound partition before

/-- The index is left alone, and right where there is one. -/
theorem indexed_save_of_le {process : Process} (own : process.OwnFiles) (indexed : process.Indexed)
    {rkmessage : KafkaMessage} (le : rkmessage.partition ≤ process.maxPartition) :
    (process.save rkmessage).Indexed ↔ ∃ partition, process.HasSaved partition := by
  have index : (process.save rkmessage).dir.lookup offsetTxt = process.dir.lookup offsetTxt := by
    rw [lookup_save_offsetTxt, if_neg (Int32.not_lt.mpr le)]
  constructor
  · intro saves
    obtain ⟨greatest, hgreatest, -, -⟩ := saves ⟨_, hasSaved_save.mpr (.inl rfl)⟩
    rw [index] at hgreatest
    obtain ⟨partition, -, -, saved⟩ := own.index _ hgreatest
    exact ⟨partition, saved⟩
  · intro some _
    obtain ⟨greatest, hgreatest, saved, bound⟩ := indexed some
    have counted : process.maxPartition ≤ greatest := by
      rcases own.counted with zero | hmax
      · obtain ⟨partition, positive, htext, -⟩ := own.index _ hgreatest
        rw [zero, toDecimal_toInt_inj.mp htext]
        exact Int32.le_of_lt positive
      · exact bound _ hmax
    refine ⟨greatest, index.trans hgreatest, hasSaved_save.mpr (.inr saved), ?_⟩
    intro partition hpartition
    rcases hasSaved_save.mp hpartition with rfl | before
    · exact Int32.le_trans le counted
    · exact bound partition before

theorem indexed_after_iff {consumer : KafkaConsumer} (ready : consumer.inited = true)
    (process : Process) (action : IndexAction) (own : process.OwnFiles)
    (indexed : process.Indexed) :
    (process.after consumer action).Indexed ↔ process.KeepsIndex action := by
  cases action with
  | restart => exact iff_of_true indexed trivial
  | fetchMsg rkmessage tm =>
    rw [after_message ready, KeepsIndex]
    by_cases saves : tm.saves = true
    · rw [if_pos saves, forall_prop_of_true saves]
      by_cases greater : process.maxPartition < rkmessage.partition
      · rw [indexed_save_greater greater, forall_prop_of_true greater,
          forall_prop_of_false (Int32.not_le.mpr greater), and_true]
      · have le := Int32.not_lt.mp greater
        rw [indexed_save_of_le own indexed le, forall_prop_of_true le,
          forall_prop_of_false greater, true_and]
    · rw [if_neg saves, forall_prop_of_false saves]
      exact iff_of_true indexed trivial

/-- Nothing that `FetchMsg` writes is in the directory yet. -/
structure Unwritten (dir : Directory) : Prop where
  index : dir.lookup offsetTxt = none
  offsets : ∀ partition, partitionFile partition ∉ dir

/-- The index is right throughout a run of fetches and restarts exactly when every save of the run
keeps it right. -/
theorem index_greatest_iff {consumer : KafkaConsumer} (ready : consumer.inited = true)
    {dir : Directory} (unwritten : Unwritten dir) (actions : List IndexAction) :
    Always (Process.after consumer) Indexed ⟨dir, 0⟩ actions ↔
      Along (Process.after consumer) KeepsIndex ⟨dir, 0⟩ actions :=
  always_iff_of_exact_under (fun _ _ => OwnFiles.after ready _ _) (indexed_after_iff ready)
    (ownFiles_start unwritten.index) fun ⟨partition, saved⟩ =>
      absurd saved (unwritten.offsets partition)

end Process

/-- A message of the partition in the first minute of the window. -/
def saved (partition : Int32) : IndexAction := .fetchMsg ⟨partition, 7, []⟩ ⟨1, 0⟩

namespace Process

theorem hasSaved_after {process : Process} {p q : Int32} :
    (process.after KafkaConsumer.exampleConsumer (saved p)).HasSaved q ↔
      q = p ∨ process.HasSaved q := hasSaved_save

theorem hasSaved_restart {process : Process} {q : Int32} :
    (process.after KafkaConsumer.exampleConsumer .restart).HasSaved q ↔ process.HasSaved q :=
  Iff.rfl

theorem index_greatest_again :
    Always (Process.after KafkaConsumer.exampleConsumer) Indexed ⟨∅, 0⟩
      [saved 1, .restart, saved 1] := by
  have empty (partition : Int32) : ¬HasSaved ⟨∅, 0⟩ partition := Finmap.notMem_empty
  refine (index_greatest_iff rfl ⟨rfl, fun _ => Finmap.notMem_empty⟩ _).mpr
    ⟨?_, trivial, ?_, trivial⟩
  · intro _
    exact ⟨fun _ partition some => absurd some (empty partition), fun le => absurd le (by decide)⟩
  · intro _
    refine ⟨fun _ partition some => ?_, fun le => absurd le (by decide)⟩
    rw [hasSaved_restart, hasSaved_after] at some
    exact Int32.le_of_eq (some.resolve_right (empty partition))

/-- The first save is of partition 0, which writes no index; and partition 3 takes the place of
partition 5 in the index after a restart. -/
theorem index_not_greatest :
    ¬Always (Process.after KafkaConsumer.exampleConsumer) Indexed ⟨∅, 0⟩ [saved 0] ∧
      ¬Always (Process.after KafkaConsumer.exampleConsumer) Indexed ⟨∅, 0⟩
        [saved 5, .restart, saved 3] := by
  constructor
  · intro indexed
    obtain ⟨greatest, hgreatest, -⟩ := indexed.last ⟨0, hasSaved_after.mpr (.inl rfl)⟩
    have unwritten : (Process.after KafkaConsumer.exampleConsumer ⟨∅, 0⟩ (saved 0)).dir.lookup
        offsetTxt = none := (lookup_save_offsetTxt ⟨0, 7, []⟩ ⟨∅, 0⟩).trans (if_neg (by decide))
    cases unwritten.symm.trans hgreatest
  · intro indexed
    obtain ⟨greatest, hgreatest, -, bound⟩ := indexed.last ⟨3, hasSaved_after.mpr (.inl rfl)⟩
    have three : greatest = 3 := (toDecimal_toInt_inj.mp (Option.some.inj hgreatest)).symm
    have five : (5 : Int32) ≤ greatest := bound 5
      (hasSaved_after.mpr (.inr (hasSaved_restart.mpr (hasSaved_after.mpr (.inl rfl)))))
    rw [three] at five
    exact absurd five (by decide)

end Process

/-- The offset of the partition, as `getline` and `atoi` read it from its file. -/
def offsetReadBack (dir : Directory) (partition : Int32) : Int64 :=
  (atoi (readLine dir (partitionFile partition))).toInt64

theorem readLine_save (process : Process) (rkmessage : KafkaMessage) :
    readLine (process.save rkmessage).dir (partitionFile rkmessage.partition) =
      toDecimal rkmessage.offset.toInt := by
  have named : (partitionFile rkmessage.partition).isEmpty = false := by
    rw [List.isEmpty_eq_false_iff]
    exact List.append_ne_nil_of_left_ne_nil (by decide) _
  rw [readLine, named, Process.lookup_save_partitionFile, if_pos rfl, Option.getD_some,
    takeWhile_toDecimal]
  rfl

/-- An offset that is saved is read back as itself exactly when it fits into 31 bits. -/
theorem offsetReadBack_save_iff (process : Process) (rkmessage : KafkaMessage)
    (nonneg : 0 ≤ rkmessage.offset) :
    offsetReadBack (process.save rkmessage).dir rkmessage.partition = rkmessage.offset ↔
      rkmessage.offset < 2 ^ 31 := by
  obtain ⟨n, hn⟩ := Int.eq_ofNat_of_zero_le (Int64.le_iff_toInt_le.mp nonneg)
  have range := rkmessage.offset.toInt_lt
  have width : ((2 : Int64) ^ 31).toInt = 2 ^ 31 := by decide
  rw [offsetReadBack, readLine_save, Int64.lt_iff_toInt_lt, ← Int64.toInt_inj,
    Int32.toInt_toInt64, width, hn, toDecimal_natCast, atoi_decimal (by omega)]
  constructor
  · intro same
    have bound := (Int32.ofNat n).toInt_lt
    omega
  · intro bound
    exact Int32.toInt_ofNat_of_lt (by omega)

theorem offsetReadBack_save_example :
    offsetReadBack (Process.save ⟨3, 2 ^ 31 - 1, []⟩ ⟨∅, 0⟩).dir 3 = 2 ^ 31 - 1 :=
  (offsetReadBack_save_iff ⟨∅, 0⟩ ⟨3, 2 ^ 31 - 1, []⟩ (by decide)).mpr (by decide)

theorem offsetReadBack_wraps :
    let dir : Directory := (Process.save ⟨3, 2 ^ 31, []⟩ ⟨∅, 0⟩).dir
    offsetReadBack dir 3 = -2 ^ 31 ∧ offsetReadBack dir 3 ≠ 2 ^ 31 := by
  have written : toDecimal (2 ^ 31 : Int64).toInt = decimal (2 ^ 31) := by
    rw [show (2 ^ 31 : Int64).toInt = ((2 ^ 31 : Nat) : Int) by decide, toDecimal_natCast]
  have wraps : offsetReadBack (Process.save ⟨3, 2 ^ 31, []⟩ ⟨∅, 0⟩).dir 3 = -2 ^ 31 := by
    rw [offsetReadBack, readLine_save ⟨∅, 0⟩ ⟨3, 2 ^ 31, []⟩, written, atoi_decimal (by decide)]
    decide
  exact ⟨wraps, fun same => absurd (wraps.symm.trans same) (by decide)⟩

end ABDyeing
