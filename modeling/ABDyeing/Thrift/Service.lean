import ABDyeing.Thrift.Accept

/-! The service of `ABDyeingService.cpp`: the arguments and the results of the four methods, the
client, and the processor, which is given a message, calls the handler and answers with a message.

What the methods have in common is written once, and each of them gives its name and its structs. -/

namespace ABDyeing

open Lib

/-- What the service calls of the Thrift runtime.  `process` reads the beginning of a message and
gives its name, its number and what follows to `dispatchCall`. -/
structure TRuntime extends TProtocol where
  writeApplicationException : TApplicationException → Bytes
  readApplicationException : TReader TApplicationException
  process : (Bytes → Int32 → TReader Bytes) → TReader Bytes

structure TRuntime.Lawful (t : TRuntime) : Prop where
  protocol : t.toProtocol.Lawful
  applicationException : ∀ (x : TApplicationException) rest, StringFits x.message →
    t.readApplicationException (t.writeApplicationException x ++ rest) = .ok (x, rest)
  process : ∀ dispatch name seqid s, StringFits name →
    t.process dispatch (t.writeMessageBegin name .call seqid ++ s) = dispatch name seqid s

namespace ABDyeingService

structure DyeingArgs where
  uid : Bytes
  req : ABDyeingRequest

structure DyeingLanArgs where
  uid : Bytes
  req : ABDyeingLanRequest

structure BatchDyeingArgs where
  batchReqs : ABDyeingBatchRequest

structure BatchDyeingLanArgs where
  batchReqs : ABDyeingBatchLanRequest

/-- The result of a method, whose only field has the number 0. -/
structure Result (α : Type) where
  isset : Bool
  success : α

section Codec

variable (p : TProtocol)

namespace DyeingArgs

def fields : List (FieldCase TException DyeingArgs) :=
  [⟨1, .string, fun this => return { this with uid := ← p.readString }⟩,
   ⟨2, .struct, fun this => return { this with req := ← this.req.read p }⟩]

def read (this : DyeingArgs) : TReader DyeingArgs :=
  p.readRecord .invalidData (fields p) [] this

def write (this : DyeingArgs) : Bytes :=
  p.writeStruct [⟨.string, 1, p.writeString this.uid⟩, ⟨.struct, 2, this.req.write p⟩]

end DyeingArgs

namespace DyeingLanArgs

def fields : List (FieldCase TException DyeingLanArgs) :=
  [⟨1, .string, fun this => return { this with uid := ← p.readString }⟩,
   ⟨2, .struct, fun this => return { this with req := ← this.req.read p }⟩]

def read (this : DyeingLanArgs) : TReader DyeingLanArgs :=
  p.readRecord .invalidData (fields p) [] this

def write (this : DyeingLanArgs) : Bytes :=
  p.writeStruct [⟨.string, 1, p.writeString this.uid⟩, ⟨.struct, 2, this.req.write p⟩]

end DyeingLanArgs

namespace BatchDyeingArgs

def fields : List (FieldCase TException BatchDyeingArgs) :=
  [⟨1, .struct, fun this => return ⟨← this.batchReqs.read p⟩⟩]

def read (this : BatchDyeingArgs) : TReader BatchDyeingArgs :=
  p.readRecord .invalidData (fields p) [] this

def write (this : BatchDyeingArgs) : Bytes :=
  p.writeStruct [⟨.struct, 1, this.batchReqs.write p⟩]

end BatchDyeingArgs

namespace BatchDyeingLanArgs

def fields : List (FieldCase TException BatchDyeingLanArgs) :=
  [⟨1, .struct, fun this => return ⟨← this.batchReqs.read p⟩⟩]

def read (this : BatchDyeingLanArgs) : TReader BatchDyeingLanArgs :=
  p.readRecord .invalidData (fields p) [] this

def write (this : BatchDyeingLanArgs) : Bytes :=
  p.writeStruct [⟨.struct, 1, this.batchReqs.write p⟩]

end BatchDyeingLanArgs

namespace Result

variable {α : Type}

def fields (readSuccess : α → TReader α) : List (FieldCase TException (Result α)) :=
  [⟨0, .struct, fun this => return ⟨true, ← readSuccess this.success⟩⟩]

def read (readSuccess : α → TReader α) (this : Result α) : TReader (Result α) :=
  p.readRecord .invalidData (fields readSuccess) [] this

def write (writeSuccess : α → Bytes) (this : Result α) : Bytes :=
  p.writeStruct (if this.isset then [⟨.struct, 0, writeSuccess this.success⟩] else [])

end Result

end Codec

end ABDyeingService

/-- The interface of a handler.  An exception that it throws is its `what()`. -/
structure ABDyeingServiceIf where
  dyeing : ABDyeingReply → Bytes → ABDyeingRequest → Outcome Bytes ABDyeingReply
  dyeingLan : ABDyeingReply → Bytes → ABDyeingLanRequest → Outcome Bytes ABDyeingReply
  batchDyeing : ABDyeingBatchReply → ABDyeingBatchRequest → Outcome Bytes ABDyeingBatchReply
  batchDyeingLan : ABDyeingBatchReply → ABDyeingBatchLanRequest → Outcome Bytes ABDyeingBatchReply

section Calls

variable (t : TRuntime) {α β : Type}

namespace ABDyeingServiceClient

def send (name args : Bytes) : Bytes :=
  let cseqid := 0
  t.writeMessageBegin name .call cseqid ++ args

/-- `recv_...`, where a message that is neither an exception nor a reply, or has another name, is
skipped, and the result is read from what follows it. -/
def recv (name : Bytes) (readReply : α → TReader α) (reply : α) : TReader α := do
  let (fname, mtype, _) ← t.readMessageBegin
  if mtype = .exception then
    let x ← t.readApplicationException
    StateT.lift (.error (.exception (.application x)))
  else do
    if mtype ≠ .reply then t.skip .struct
    if fname ≠ name then t.skip .struct
    let result ← ABDyeingService.Result.read t.toProtocol readReply ⟨false, reply⟩
    if result.isset then return result.success
    else StateT.lift (.error (.exception (.application
      ⟨.missingResult, name ++ str " failed: unknown result"⟩)))

/-- A method of the client; `transport` brings back the answer to what was sent. -/
def call (transport : Bytes → Outcome TException Bytes) (name args : Bytes)
    (readReply : α → TReader α) (reply : α) : Outcome TException α := do
  let answer ← transport (send t name args)
  let (reply, _) ← recv t name readReply reply answer
  return reply

variable (transport : Bytes → Outcome TException Bytes)

def dyeing (reply : ABDyeingReply) (uid : Bytes) (req : ABDyeingRequest) :
    Outcome TException ABDyeingReply :=
  call t transport (str "dyeing") (ABDyeingService.DyeingArgs.write t.toProtocol ⟨uid, req⟩)
    (·.read t.toProtocol) reply

def dyeingLan (reply : ABDyeingReply) (uid : Bytes) (req : ABDyeingLanRequest) :
    Outcome TException ABDyeingReply :=
  call t transport (str "DyeingLan") (ABDyeingService.DyeingLanArgs.write t.toProtocol ⟨uid, req⟩)
    (·.read t.toProtocol) reply

def batchDyeing (reply : ABDyeingBatchReply) (batchReqs : ABDyeingBatchRequest) :
    Outcome TException ABDyeingBatchReply :=
  call t transport (str "BatchDyeing")
    (ABDyeingService.BatchDyeingArgs.write t.toProtocol ⟨batchReqs⟩) (·.read t.toProtocol) reply

def batchDyeingLan (reply : ABDyeingBatchReply) (batchReqs : ABDyeingBatchLanRequest) :
    Outcome TException ABDyeingBatchReply :=
  call t transport (str "BatchDyeingLan")
    (ABDyeingService.BatchDyeingLanArgs.write t.toProtocol ⟨batchReqs⟩) (·.read t.toProtocol) reply

end ABDyeingServiceClient

namespace ABDyeingServiceProcessor

/-- `process_...`, from what is read to what is written. -/
def processCall (name : Bytes) (readArgs : TReader α) (method : α → Outcome Bytes β)
    (writeReply : β → Bytes) (seqid : Int32) : TReader Bytes := do
  let args ← readArgs
  match method args with
  | .ok success => return t.writeMessageBegin name .reply seqid ++
      ABDyeingService.Result.write t.toProtocol writeReply ⟨true, success⟩
  | .error (.exception what) => return t.writeMessageBegin name .exception seqid ++
      t.writeApplicationException ⟨.unknown, what⟩
  | .error .undefined => StateT.lift (.error .undefined)

variable (iface : ABDyeingServiceIf)

def processDyeing : Int32 → TReader Bytes :=
  processCall t (str "dyeing") (ABDyeingService.DyeingArgs.read t.toProtocol ⟨[], .new⟩)
    (fun args => iface.dyeing .new args.uid args.req) (·.write t.toProtocol)

def processDyeingLan : Int32 → TReader Bytes :=
  processCall t (str "DyeingLan") (ABDyeingService.DyeingLanArgs.read t.toProtocol ⟨[], .new⟩)
    (fun args => iface.dyeingLan .new args.uid args.req) (·.write t.toProtocol)

def processBatchDyeing : Int32 → TReader Bytes :=
  processCall t (str "BatchDyeing") (ABDyeingService.BatchDyeingArgs.read t.toProtocol ⟨.new⟩)
    (fun args => iface.batchDyeing .new args.batchReqs) (·.write t.toProtocol)

def processBatchDyeingLan : Int32 → TReader Bytes :=
  processCall t (str "BatchDyeingLan")
    (ABDyeingService.BatchDyeingLanArgs.read t.toProtocol ⟨.new⟩)
    (fun args => iface.batchDyeingLan .new args.batchReqs) (·.write t.toProtocol)

def processMap : List (Bytes × (Int32 → TReader Bytes)) :=
  [(str "dyeing", processDyeing t iface), (str "DyeingLan", processDyeingLan t iface),
   (str "BatchDyeing", processBatchDyeing t iface),
   (str "BatchDyeingLan", processBatchDyeingLan t iface)]

def dispatchCall (fname : Bytes) (seqid : Int32) : TReader Bytes :=
  match (processMap t iface).lookup fname with
  | none => do
    t.skip .struct
    return t.writeMessageBegin fname .exception seqid ++ t.writeApplicationException
      ⟨.unknownMethod, str "Invalid method name: '" ++ fname ++ str "'"⟩
  | some process => process seqid

/-- What the client gets back for a message. -/
def transport (s : Bytes) : Outcome TException Bytes := do
  let (answer, _) ← t.process (dispatchCall t iface) s
  return answer

end ABDyeingServiceProcessor

end Calls

end ABDyeing
