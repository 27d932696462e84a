import ABDyeing.Lib.Record
import ABDyeing.Rpc

/-! The readers and the writers of the structs of `ab_dyeing.thrift`, over a protocol.  A reader
reads into a struct, `this`, and leaves in it what it does not meet on the wire. -/

namespace ABDyeing

open Lib

/-- The types of a `TApplicationException` that the generated code makes. -/
inductive ApplicationError
  | unknown
  | unknownMethod
  | missingResult
  deriving DecidableEq

structure TApplicationException where
  type : ApplicationError
  message : Bytes
  deriving DecidableEq

/-- The exceptions of the Thrift runtime; `invalidData` is the one of `TProtocolException`, which
the generated readers throw themselves. -/
inductive TException
  | invalidData
  | application (x : TApplicationException)
  | runtime (what : Bytes)
  deriving DecidableEq

abbrev TProtocol := Protocol TException

abbrev TReader := Reader TException

structure ABDyeingBatchRequest where
  uidReqInfos : List ABDyeingUidReqInfo

structure ABDyeingBatchLanRequest where
  uidLanReqInfos : List ABDyeingUidLanReqInfo

def ABDyeingRequest.new : ABDyeingRequest := ⟨[], [], []⟩

def ABDyeingLanRequest.new : ABDyeingLanRequest := ⟨[], [], [], []⟩

def ABDyeingUidReqInfo.new : ABDyeingUidReqInfo := ⟨[], .new⟩

def ABDyeingUidLanReqInfo.new : ABDyeingUidLanReqInfo := ⟨[], .new⟩

def ABDyeingBatchRequest.new : ABDyeingBatchRequest := ⟨[]⟩

def ABDyeingBatchLanRequest.new : ABDyeingBatchLanRequest := ⟨[]⟩

def ABDyeingEntry.new : ABDyeingEntry := ⟨[], []⟩

def Status.toInt32 : Status → Int32
  | .rcStatusOk => 0
  | .rcServerError => 1
  | .rcServerFault => 2
  | .rcUnknowError => 3

/-- `(ab_status::type)n`, which says nothing of a number without a name. -/
def Status.ofInt32 (n : Int32) : Outcome TException Status :=
  if n = 0 then .ok .rcStatusOk
  else if n = 1 then .ok .rcServerError
  else if n = 2 then .ok .rcServerFault
  else if n = 3 then .ok .rcUnknowError
  else .error .undefined

@[simp] theorem Status.ofInt32_toInt32 (status : Status) :
    Status.ofInt32 status.toInt32 = .ok status := by
  cases status <;> rfl

section Codec

variable (p : TProtocol)

namespace ABDyeingRequest

def fields : List (FieldCase TException ABDyeingRequest) :=
  [⟨1, .string, fun this => return { this with app := ← p.readString }⟩,
   ⟨2, .string, fun this => return { this with appVer := ← p.readString }⟩,
   ⟨3, .list, fun this => return { this with types := ← p.readList p.readString }⟩]

def read (this : ABDyeingRequest) : TReader ABDyeingRequest :=
  p.readRecord .invalidData (fields p) [1, 2, 3] this

def write (this : ABDyeingRequest) : Bytes :=
  p.writeStruct
    [⟨.string, 1, p.writeString this.app⟩, ⟨.string, 2, p.writeString this.appVer⟩,
     ⟨.list, 3, p.writeList .string p.writeString this.types⟩]

end ABDyeingRequest

namespace ABDyeingLanRequest

def fields : List (FieldCase TException ABDyeingLanRequest) :=
  [⟨1, .string, fun this => return { this with app := ← p.readString }⟩,
   ⟨2, .string, fun this => return { this with appVer := ← p.readString }⟩,
   ⟨3, .string, fun this => return { this with appLan := ← p.readString }⟩,
   ⟨4, .list, fun this => return { this with types := ← p.readList p.readString }⟩]

def read (this : ABDyeingLanRequest) : TReader ABDyeingLanRequest :=
  p.readRecord .invalidData (fields p) [1, 2, 3, 4] this

def write (this : ABDyeingLanRequest) : Bytes :=
  p.writeStruct
    [⟨.string, 1, p.writeString this.app⟩, ⟨.string, 2, p.writeString this.appVer⟩,
     ⟨.string, 3, p.writeString this.appLan⟩,
     ⟨.list, 4, p.writeList .string p.writeString this.types⟩]

end ABDyeingLanRequest

namespace ABDyeingUidReqInfo

def fields : List (FieldCase TException ABDyeingUidReqInfo) :=
  [⟨1, .string, fun this => return { this with uid := ← p.readString }⟩,
   ⟨2, .struct, fun this => return { this with uidInfo := ← this.uidInfo.read p }⟩]

def read (this : ABDyeingUidReqInfo) : TReader ABDyeingUidReqInfo :=
  p.readRecord .invalidData (fields p) [1, 2] this

def write (this : ABDyeingUidReqInfo) : Bytes :=
  p.writeStruct
    [⟨.string, 1, p.writeString this.uid⟩, ⟨.struct, 2, this.uidInfo.write p⟩]

end ABDyeingUidReqInfo

namespace ABDyeingUidLanReqInfo

def fields : List (FieldCase TException ABDyeingUidLanReqInfo) :=
  [⟨1, .string, fun this => return { this with uid := ← p.readString }⟩,
   ⟨2, .struct, fun this => return { this with uidLanInfo := ← this.uidLanInfo.read p }⟩]

def read (this : ABDyeingUidLanReqInfo) : TReader ABDyeingUidLanReqInfo :=
  p.readRecord .invalidData (fields p) [1, 2] this

def write (this : ABDyeingUidLanReqInfo) : Bytes :=
  p.writeStruct
    [⟨.string, 1, p.writeString this.uid⟩, ⟨.struct, 2, this.uidLanInfo.write p⟩]

end ABDyeingUidLanReqInfo

namespace ABDyeingBatchRequest

def fields : List (FieldCase TException ABDyeingBatchRequest) :=
  [⟨1, .list, fun this => return { this with
    uidReqInfos := ← p.readList (ABDyeingUidReqInfo.new.read p) }⟩]

def read (this : ABDyeingBatchRequest) : TReader ABDyeingBatchRequest :=
  p.readRecord .invalidData (fields p) [1] this

def write (this : ABDyeingBatchRequest) : Bytes :=
  p.writeStruct [⟨.list, 1, p.writeList .struct (·.write p) this.uidReqInfos⟩]

end ABDyeingBatchRequest

namespace ABDyeingBatchLanRequest

def fields : List (FieldCase TException ABDyeingBatchLanRequest) :=
  [⟨1, .list, fun this => return { this with
    uidLanReqInfos := ← p.readList (ABDyeingUidLanReqInfo.new.read p) }⟩]

def read (this : ABDyeingBatchLanRequest) : TReader ABDyeingBatchLanRequest :=
  p.readRecord .invalidData (fields p) [1] this

def write (this : ABDyeingBatchLanRequest) : Bytes :=
  p.writeStruct [⟨.list, 1, p.writeList .struct (·.write p) this.uidLanReqInfos⟩]

end ABDyeingBatchLanRequest

namespace ABDyeingEntry

def fields : List (FieldCase TException ABDyeingEntry) :=
  [⟨1, .string, fun this => return { this with type := ← p.readString }⟩,
   ⟨2, .string, fun this => return { this with configId := ← p.readString }⟩]

def read (this : ABDyeingEntry) : TReader ABDyeingEntry :=
  p.readRecord .invalidData (fields p) [1, 2] this

def write (this : ABDyeingEntry) : Bytes :=
  p.writeStruct
    [⟨.string, 1, p.writeString this.type⟩, ⟨.string, 2, p.writeString this.configId⟩]

end ABDyeingEntry

/-- What a `status` is read from. -/
def readStatus : TReader Status := do
  let n ← p.readI32
  StateT.lift (Status.ofInt32 n)

namespace ABDyeingReply

def fields : List (FieldCase TException ABDyeingReply) :=
  [⟨1, .i32, fun this => return { this with status := ← readStatus p }⟩,
   ⟨2, .list, fun this => return { this with
    entries := ← p.readList (ABDyeingEntry.new.read p), isset := true }⟩]

def read (this : ABDyeingReply) : TReader ABDyeingReply :=
  p.readRecord .invalidData (fields p) [1] this

def write (this : ABDyeingReply) : Bytes :=
  p.writeStruct (⟨.i32, 1, p.writeI32 this.status.toInt32⟩ ::
    if this.isset then [⟨.list, 2, p.writeList .struct (·.write p) this.entries⟩] else [])

end ABDyeingReply

namespace ABDyeingUidRepInfo

def fields : List (FieldCase TException ABDyeingUidRepInfo) :=
  [⟨1, .string, fun this => return { this with uid := ← p.readString }⟩,
   ⟨2, .struct, fun this => return { this with uidRep := ← this.uidRep.read p }⟩]

def read (this : ABDyeingUidRepInfo) : TReader ABDyeingUidRepInfo :=
  p.readRecord .invalidData (fields p) [1, 2] this

def write (this : ABDyeingUidRepInfo) : Bytes :=
  p.writeStruct
    [⟨.string, 1, p.writeString this.uid⟩, ⟨.struct, 2, this.uidRep.write p⟩]

end ABDyeingUidRepInfo

namespace ABDyeingBatchReply

def fields : List (FieldCase TException ABDyeingBatchReply) :=
  [⟨1, .i32, fun this => return { this with status := ← readStatus p }⟩,
   ⟨2, .list, fun this => return { this with
    uidRepInfos := ← p.readList (ABDyeingUidRepInfo.new.read p), isset := true }⟩]

def read (this : ABDyeingBatchReply) : TReader ABDyeingBatchReply :=
  p.readRecord .invalidData (fields p) [1] this

def write (this : ABDyeingBatchReply) : Bytes :=
  p.writeStruct (⟨.i32, 1, p.writeI32 this.status.toInt32⟩ ::
    if this.isset then [⟨.list, 2, p.writeList .struct (·.write p) this.uidRepInfos⟩] else [])

end ABDyeingBatchReply

end Codec

end ABDyeing
