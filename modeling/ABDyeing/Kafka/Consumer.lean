import ABDyeing.Lib.Bytes
import ABDyeing.Lib.UnorderedMap
import ABDyeing.QConfig

/-! `KafkaConsumer` over the answers of the Kafka library and a directory of files.  In the first
five minutes after one in the morning `FetchMsg` writes down how far it got in each partition, and
`Init` reads it back. -/

namespace ABDyeing

open Lib

structure KafkaMessage where
  partition : Int32
  offset : Int64
  payload : Bytes

inductive Poll
  | timeout
  | unknownPartition
  | unknownTopic
  | partitionEof (partition : Int32) (offset : Int64)
  | failed (errstr : Bytes)
  | message (rkmessage : KafkaMessage)

structure Tm where
  hour : Int32
  min : Int32

structure TopicPartition where
  topic : Bytes
  partition : Int32
  offset : Int64
  deriving DecidableEq

/-- The answers of the Kafka library; an error is its text.  A new entry of a list has the offset
`offsetInvalid` until one is set. -/
structure KafkaLibrary where
  confSet : Bytes → Bytes → Option Bytes
  topicConfSet : Bytes → Bytes → Option Bytes
  create : Option Bytes
  brokersAdd : Bytes → Nat
  subscribe : List TopicPartition → Option Bytes
  offsetInvalid : Int64

abbrev Directory := UnorderedMap Bytes Bytes

/-- The line that `getline` reads from a file that was just opened, empty where it cannot be. -/
def readLine (dir : Directory) (fileName : Bytes) : Bytes :=
  if fileName.isEmpty then [] else ((dir.lookup fileName).getD []).takeWhile (· ≠ 10)

/-- A running process: its directory, and the `max_partition` of `FetchMsg`. -/
structure Process where
  dir : Directory
  maxPartition : Int32

/-- A `KafkaConsumer`, with what `rd_kafka_assign` was called with. -/
structure KafkaConsumer where
  brokers : List (Bytes × UInt16)
  group : Bytes
  topic : Bytes
  inited : Bool
  errmsg : Bytes
  topics : List TopicPartition
  assigned : Option (List TopicPartition)

def KafkaConsumer.new (brokers : List (Bytes × UInt16)) (group topic : Bytes) : KafkaConsumer :=
  ⟨brokers, group, topic, false, [], [], none⟩

def offsetTxt : Bytes := str "offset.txt"

def offsetPartition : Bytes := str "offset.partition"

def partitionFile (partition : Int32) : Bytes := offsetPartition ++ toDecimal partition.toInt

def Process.save (rkmessage : KafkaMessage) (process : Process) : Process :=
  let dir := process.dir.insert (partitionFile rkmessage.partition)
    (toDecimal rkmessage.offset.toInt)
  if process.maxPartition < rkmessage.partition then
    ⟨dir.insert offsetTxt (toDecimal rkmessage.partition.toInt), rkmessage.partition⟩
  else ⟨dir, process.maxPartition⟩

def Tm.saves (tm : Tm) : Bool := tm.hour = 1 && tm.min < 5

structure Fetched where
  consumer : KafkaConsumer
  process : Process
  msg : Bytes
  ret : Int32

/-- `"offset.partition" + p_size`, where the literal is an array of seventeen characters. -/
def literalFrom (pSize : Nat) : Outcome Exception Bytes :=
  if pSize ≤ offsetPartition.length then .ok (offsetPartition.drop pSize) else .error .undefined

namespace KafkaConsumer

/-- `FetchMsg`.  `none` stands for the failed assertion, which ends the process. -/
def fetchMsg (poll : Poll) (tm : Tm) (consumer : KafkaConsumer) (process : Process) :
    Option Fetched :=
  if consumer.inited then
    match poll with
    | .timeout => some ⟨{ consumer with errmsg := str "No message" }, process, [], 1⟩
    | .unknownPartition => none
    | .unknownTopic => none
    | .partitionEof partition offset =>
      some ⟨{ consumer with
        errmsg := str "Consumer reached end of message queue partition: " ++
          toDecimal partition.toInt ++ str "at offset: " ++ toDecimal offset.toInt },
        process, [], 1⟩
    | .failed errstr => some ⟨{ consumer with errmsg := errstr }, process, [], -1⟩
    | .message rkmessage =>
      some ⟨consumer, if tm.saves then process.save rkmessage else process, rkmessage.payload, 0⟩
  else some ⟨consumer, process, [], -1⟩

def fetchAll (consumer : KafkaConsumer) (process : Process) : List (Poll × Tm) →
    Option (KafkaConsumer × Process)
  | [] => some (consumer, process)
  | (poll, tm) :: polls =>
    match fetchMsg poll tm consumer process with
    | none => none
    | some fetched => fetchAll fetched.consumer fetched.process polls

def brokerList (brokers : List (Bytes × UInt16)) : Bytes :=
  (str ",").intercalate (brokers.map fun broker => broker.1 ++ str ":" ++ decimal broker.2.toNat)

/-- The loop of `Init` over the partitions from `pSize` on, of which `count` are left. -/
def readOffsets (dir : Directory) (topic : Bytes) :
    Nat → Nat → List TopicPartition → Outcome Exception (List TopicPartition)
  | 0, _, topics => .ok topics
  | count + 1, pSize, topics => do
    let fileName ← literalFrom pSize
    let pOffset := readLine dir fileName
    readOffsets dir topic count (pSize + 1)
      (topics ++ [⟨topic, Int32.ofNat pSize, (atoi pOffset).toInt64⟩])

/-- The part of `Init` that fills and assigns the list of partitions. -/
def restore (lib : KafkaLibrary) (dir : Directory) (consumer : KafkaConsumer) :
    Outcome Exception KafkaConsumer :=
  let strPMax := readLine dir offsetTxt
  if strPMax.isEmpty then
    .ok { consumer with topics := [⟨consumer.topic, -1, lib.offsetInvalid⟩] }
  else do
    let pMax := (atoi strPMax).toInt
    let topics ← readOffsets dir consumer.topic (pMax + 1).toNat 0 []
    return { consumer with topics := topics, assigned := some topics }

def subscribe (lib : KafkaLibrary) (consumer : KafkaConsumer) : KafkaConsumer × Int32 :=
  match lib.subscribe consumer.topics with
  | some errstr => ({ consumer with errmsg := str "Failed to start consuming" ++ errstr }, -1)
  | none => ({ consumer with inited := true }, 0)

def init (lib : KafkaLibrary) (dir : Directory) (consumer : KafkaConsumer) :
    Outcome Exception (KafkaConsumer × Int32) :=
  let consumer := { consumer with inited := false }
  match lib.confSet (str "group.id") consumer.group with
  | some errstr => .ok ({ consumer with errmsg := errstr }, -1)
  | none =>
    match lib.topicConfSet (str "offset.store.method") (str "broker") with
    | some errstr => .ok ({ consumer with errmsg := errstr }, -1)
    | none =>
      match lib.create with
      | some errstr => .ok ({ consumer with errmsg := errstr }, -1)
      | none =>
        if lib.brokersAdd (brokerList consumer.brokers) = 0 then
          .ok ({ consumer with errmsg := str "No valid brokers specified" }, -1)
        else do
          let consumer ← consumer.restore lib dir
          return consumer.subscribe lib

end KafkaConsumer

end ABDyeing
