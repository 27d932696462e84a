import ABDyeing.Reply
import ABDyeing.Thrift.Runtime

/-! A call over the wire does what the handler does: the processor reads the arguments that the
client wrote, and the client reads the reply that the handler made, or throws what the handler
threw. -/

namespace ABDyeing

open Lib

/-- What the client makes of what the handler returns or throws; `receive` is what a reply is read
as. -/
def answered {α β : Type} (receive : α → β) : Outcome Bytes α → Outcome TException β
  | .ok success => .ok (receive success)
  | .error (.exception what) => .error (.exception (.application ⟨.unknown, what⟩))
  | .error .undefined => .error .undefined

section Generic

variable {t : TRuntime} {α β γ : Type}

section Process

open ABDyeingServiceProcessor

variable {name : Bytes} {readArgs : TReader α} {method : α → Outcome Bytes β}
  {writeReply : β → Bytes} {s rest : Bytes} {args : α} (reads : readArgs s = .ok (args, rest))

include reads

theorem processCall_reply {success : β} (result : method args = .ok success) (seqid : Int32) :
    processCall t name readArgs method writeReply seqid s =
      .ok (t.writeMessageBegin name .reply seqid ++
        ABDyeingService.Result.write t.toProtocol writeReply ⟨true, success⟩, rest) := by
  rw [processCall, Reader.bind_ok reads, result]
  rfl

theorem processCall_exception {what : Bytes} (result : method args = .error (.exception what))
    (seqid : Int32) :
    processCall t name readArgs method writeReply seqid s =
      .ok (t.writeMessageBegin name .exception seqid ++
        t.writeApplicationException ⟨.unknown, what⟩, rest) := by
  rw [processCall, Reader.bind_ok reads, result]
  rfl

theorem processCall_undefined (result : method args = .error .undefined) (seqid : Int32) :
    processCall t name readArgs method writeReply seqid s = .error .undefined := by
  rw [processCall, Reader.bind_ok reads, result]
  rfl

end Process

variable (lawful : t.Lawful)

include lawful

theorem recv_reply {name : Bytes} (nameFits : StringFits name) {readReply : α → TReader α}
    {writeReply : α → Bytes} {reply success value : α}
    (reads : ∀ rest, readReply reply (writeReply success ++ rest) = .ok (value, rest))
    (seqid : Int32) (rest : Bytes) :
    ABDyeingServiceClient.recv t name readReply reply (t.writeMessageBegin name .reply seqid ++
      (ABDyeingService.Result.write t.toProtocol writeReply ⟨true, success⟩ ++ rest)) =
      .ok (value, rest) := by
  have first (rest : Bytes) := Reader.map_ok (reads rest)
    fun success => ABDyeingService.Result.mk true success
  have result : ABDyeingService.Result.read t.toProtocol readReply ⟨false, reply⟩
      (ABDyeingService.Result.write t.toProtocol writeReply ⟨true, success⟩ ++ rest) =
        .ok (⟨true, value⟩, rest) :=
    lawful.protocol.readRecord_writeStruct (.read rfl first (.stop _)) (by simp) rest
  rw [ABDyeingServiceClient.recv,
    Reader.bind_ok (lawful.protocol.messageBegin name .reply seqid _ nameFits)]
  simp only [reduceCtorEq, if_false, ne_eq, not_true_eq_false]
  rw [Reader.bind_ok result]
  rfl

theorem recv_exception {fname : Bytes} (nameFits : StringFits fname) (name : Bytes)
    (readReply : α → TReader α) (reply : α) {x : TApplicationException}
    (fits : StringFits x.message) (seqid : Int32) (rest : Bytes) :
    ABDyeingServiceClient.recv t name readReply reply (t.writeMessageBegin fname .exception seqid ++
      (t.writeApplicationException x ++ rest)) = .error (.exception (.application x)) := by
  rw [ABDyeingServiceClient.recv,
    Reader.bind_ok (lawful.protocol.messageBegin fname .exception seqid _ nameFits)]
  simp only [if_true]
  rw [Reader.bind_ok (lawful.applicationException x rest fits)]
  rfl

open ABDyeingServiceProcessor in
/-- A method whose arguments and replies are read as they were written. -/
theorem call_transport {iface : ABDyeingServiceIf} {name : Bytes} (nameFits : StringFits name)
    {readArgs : TReader γ} {method : γ → Outcome Bytes α} {readReply : α → TReader α}
    {writeReply : α → Bytes}
    (listed : (processMap t iface).lookup name =
      some (processCall t name readArgs method writeReply))
    {bytes : Bytes} {args : γ} (reads : ∀ rest, readArgs (bytes ++ rest) = .ok (args, rest))
    {reply : α} {receive : α → α}
    (receives : ∀ success, method args = .ok success → ∀ rest,
      readReply reply (writeReply success ++ rest) = .ok (receive success, rest))
    (whatFits : ∀ what, method args = .error (.exception what) → StringFits what) :
    ABDyeingServiceClient.call t (transport t iface) name bytes readReply reply =
      answered receive (method args) := by
  have read := reads []
  rw [List.append_nil] at read
  rw [ABDyeingServiceClient.call, ABDyeingServiceClient.send, transport,
    lawful.process _ _ _ _ nameFits, dispatchCall, listed]
  cases result : method args with
  | ok success =>
    have received := recv_reply lawful nameFits (receives success result) 0 []
    rw [List.append_nil] at received
    simp only [processCall_reply read result, bind, Except.bind, pure, Except.pure, received]
    rfl
  | error e =>
    cases e with
    | exception what =>
      have received := recv_exception lawful nameFits name readReply reply
        (x := ⟨.unknown, what⟩) (whatFits what result) 0 []
      rw [List.append_nil] at received
      simp only [processCall_exception read result, bind, Except.bind, pure, Except.pure, received]
      rfl
    | undefined =>
      simp only [processCall_undefined read result, bind, Except.bind]
      rfl

end Generic

/-- What is returned or thrown is within the limit of the wire. -/
def Sendable {α : Type} (fits : α → Prop) : Outcome Bytes α → Prop
  | .ok success => fits success
  | .error (.exception what) => StringFits what
  | .error .undefined => True

theorem Sendable.of_ok {α : Type} {fits : α → Prop} {x : Outcome Bytes α} (h : Sendable fits x)
    {success : α} (result : x = .ok success) : fits success := by
  rw [result] at h
  exact h

theorem Sendable.of_exception {α : Type} {fits : α → Prop} {x : Outcome Bytes α}
    (h : Sendable fits x) {what : Bytes} (result : x = .error (.exception what)) :
    StringFits what := by
  rw [result] at h
  exact h

section Methods

variable {t : TRuntime} (lawful : t.Lawful) {iface : ABDyeingServiceIf}

include lawful

theorem dyeingArgs_read (this : ABDyeingService.DyeingArgs) {uid : Bytes}
    (uidFits : StringFits uid) {req : ABDyeingRequest} (fits : req.Fits) (rest : Bytes) :
    this.read t.toProtocol (ABDyeingService.DyeingArgs.write t.toProtocol ⟨uid, req⟩ ++ rest) =
      .ok (⟨uid, req⟩, rest) := by
  have first (rest : Bytes) := Reader.map_ok (lawful.protocol.string uid rest uidFits)
    fun uid => { this with uid }
  have second (rest : Bytes) := Reader.map_ok (this.req.read_write lawful.protocol fits rest)
    fun req => ABDyeingService.DyeingArgs.mk uid req
  exact lawful.protocol.readRecord_writeStruct (.read rfl first (.read rfl second (.stop _)))
    (by simp) rest

theorem dyeingLanArgs_read (this : ABDyeingService.DyeingLanArgs) {uid : Bytes}
    (uidFits : StringFits uid) {req : ABDyeingLanRequest} (fits : req.Fits) (rest : Bytes) :
    this.read t.toProtocol (ABDyeingService.DyeingLanArgs.write t.toProtocol ⟨uid, req⟩ ++ rest) =
      .ok (⟨uid, req⟩, rest) := by
  have first (rest : Bytes) := Reader.map_ok (lawful.protocol.string uid rest uidFits)
    fun uid => { this with uid }
  have second (rest : Bytes) := Reader.map_ok (this.req.read_write lawful.protocol fits rest)
    fun req => ABDyeingService.DyeingLanArgs.mk uid req
  exact lawful.protocol.readRecord_writeStruct (.read rfl first (.read rfl second (.stop _)))
    (by simp) rest

theorem batchDyeingArgs_read (this : ABDyeingService.BatchDyeingArgs)
    {batchReqs : ABDyeingBatchRequest} (fits : batchReqs.Fits) (rest : Bytes) :
    this.read t.toProtocol (ABDyeingService.BatchDyeingArgs.write t.toProtocol ⟨batchReqs⟩ ++
      rest) = .ok (⟨batchReqs⟩, rest) := by
  have first (rest : Bytes) := Reader.map_ok (this.batchReqs.read_write lawful.protocol fits rest)
    ABDyeingService.BatchDyeingArgs.mk
  exact lawful.protocol.readRecord_writeStruct (.read rfl first (.stop _)) (by simp) rest

theorem batchDyeingLanArgs_read (this : ABDyeingService.BatchDyeingLanArgs)
    {batchReqs : ABDyeingBatchLanRequest} (fits : batchReqs.Fits) (rest : Bytes) :
    this.read t.toProtocol (ABDyeingService.BatchDyeingLanArgs.write t.toProtocol ⟨batchReqs⟩ ++
      rest) = .ok (⟨batchReqs⟩, rest) := by
  have first (rest : Bytes) := Reader.map_ok (this.batchReqs.read_write lawful.protocol fits rest)
    ABDyeingService.BatchDyeingLanArgs.mk
  exact lawful.protocol.readRecord_writeStruct (.read rfl first (.stop _)) (by simp) rest

theorem dyeing_answered (this : ABDyeingReply) {uid : Bytes} (uidFits : StringFits uid)
    {req : ABDyeingRequest} (fits : req.Fits)
    (sendable : Sendable ABDyeingReply.Fits (iface.dyeing .new uid req)) :
    ABDyeingServiceClient.dyeing t (ABDyeingServiceProcessor.transport t iface) this uid req =
      answered this.receive (iface.dyeing .new uid req) := by
  have listed : (ABDyeingServiceProcessor.processMap t iface).lookup (str "dyeing") =
      some (ABDyeingServiceProcessor.processDyeing t iface) := rfl
  exact call_transport lawful (by decide) listed (dyeingArgs_read lawful _ uidFits fits)
    (fun reply result rest => this.read_write lawful.protocol (sendable.of_ok result) rest)
    fun _ => sendable.of_exception

theorem dyeingLan_answered (this : ABDyeingReply) {uid : Bytes} (uidFits : StringFits uid)
    {req : ABDyeingLanRequest} (fits : req.Fits)
    (sendable : Sendable ABDyeingReply.Fits (iface.dyeingLan .new uid req)) :
    ABDyeingServiceClient.dyeingLan t (ABDyeingServiceProcessor.transport t iface) this uid req =
      answered this.receive (iface.dyeingLan .new uid req) := by
  have listed : (ABDyeingServiceProcessor.processMap t iface).lookup (str "DyeingLan") =
      some (ABDyeingServiceProcessor.processDyeingLan t iface) := rfl
  exact call_transport lawful (by decide) listed (dyeingLanArgs_read lawful _ uidFits fits)
    (fun reply result rest => this.read_write lawful.protocol (sendable.of_ok result) rest)
    fun _ => sendable.of_exception

theorem batchDyeing_answered (this : ABDyeingBatchReply) {batchReqs : ABDyeingBatchRequest}
    (fits : batchReqs.Fits)
    (sendable : Sendable ABDyeingBatchReply.Fits (iface.batchDyeing .new batchReqs)) :
    ABDyeingServiceClient.batchDyeing t (ABDyeingServiceProcessor.transport t iface) this
      batchReqs = answered this.receive (iface.batchDyeing .new batchReqs) := by
  have listed : (ABDyeingServiceProcessor.processMap t iface).lookup (str "BatchDyeing") =
      some (ABDyeingServiceProcessor.processBatchDyeing t iface) := rfl
  exact call_transport lawful (by decide) listed (batchDyeingArgs_read lawful _ fits)
    (fun reply result rest => this.read_write lawful.protocol (sendable.of_ok result) rest)
    fun _ => sendable.of_exception

theorem batchDyeingLan_answered (this : ABDyeingBatchReply) {batchReqs : ABDyeingBatchLanRequest}
    (fits : batchReqs.Fits)
    (sendable : Sendable ABDyeingBatchReply.Fits (iface.batchDyeingLan .new batchReqs)) :
    ABDyeingServiceClient.batchDyeingLan t (ABDyeingServiceProcessor.transport t iface) this
      batchReqs = answered this.receive (iface.batchDyeingLan .new batchReqs) := by
  have listed : (ABDyeingServiceProcessor.processMap t iface).lookup (str "BatchDyeingLan") =
      some (ABDyeingServiceProcessor.processBatchDyeingLan t iface) := rfl
  exact call_transport lawful (by decide) listed (batchDyeingLanArgs_read lawful _ fits)
    (fun reply result rest => this.read_write lawful.protocol (sendable.of_ok result) rest)
    fun _ => sendable.of_exception

end Methods

/-- The handler behind the interface; `what` are the texts of its exceptions. -/
def ABDyeingHandler.iface (city : CityHash) (handler : ABDyeingHandler) (thread : Nat)
    (faults : Nat → Faults) (batchFaults : Nat → Nat → Faults) (what : Exception → Bytes) :
    ABDyeingServiceIf where
  dyeing reply uid req := mapException what (handler.dyeing city thread faults reply uid req)
  dyeingLan reply uid req := mapException what (handler.dyeingLan city thread faults reply uid req)
  batchDyeing reply batchReqs :=
    mapException what (handler.batchDyeing city thread batchFaults reply batchReqs.uidReqInfos)
  batchDyeingLan reply batchReqs := mapException what
    (handler.batchDyeingLan city thread batchFaults reply batchReqs.uidLanReqInfos)

theorem sendable_of {α : Type} {fits : α → Prop} {what : Exception → Bytes}
    {x : Outcome Exception α} (fit : ∀ reply, x = .ok reply → fits reply)
    (caught : ∀ e, x = .error e → e = .undefined) : Sendable fits (mapException what x) := by
  cases x with
  | ok reply => exact fit reply rfl
  | error e =>
    obtain rfl := caught e rfl
    trivial

/-- A reply, or nothing that a client could see. -/
def delivered {α : Type} : Outcome Exception α → Outcome TException α
  | .ok reply => .ok reply
  | .error _ => .error .undefined

theorem answered_eq {α : Type} {receive : α → α} {what : Exception → Bytes}
    {x : Outcome Exception α} (same : ∀ reply, x = .ok reply → receive reply = reply)
    (caught : ∀ e, x = .error e → e = .undefined) :
    answered receive (mapException what x) = delivered x := by
  cases x with
  | ok reply => exact congrArg Except.ok (same reply rfl)
  | error e =>
    obtain rfl := caught e rfl
    rfl

section Batch

variable {ρ : Type} {single : Nat → ρ → Outcome Exception ABDyeingReply} {uid : ρ → Bytes}
  {loop : Nat → List ρ → ABDyeingBatchReply → Outcome Exception ABDyeingBatchReply}
  (nil : ∀ i reply, loop i [] reply = .ok reply)
  (cons : ∀ i req reqs reply, loop i (req :: reqs) reply = (do
    let uidRep ← single i req
    loop (i + 1) reqs { reply with uidRepInfos := reply.uidRepInfos ++ [⟨uid req, uidRep⟩] }))

include nil cons

theorem batchLoop_error {reqs : List ρ} {k : Nat} {reply : ABDyeingBatchReply}
    {e : Abort Exception} (h : loop k reqs reply = .error e) :
    ∃ i req, single i req = .error e := by
  induction reqs generalizing k reply with
  | nil =>
    rw [nil] at h
    cases h
  | cons req reqs ih =>
    rw [cons] at h
    cases result : single k req with
    | error e' =>
      rw [result] at h
      obtain rfl := Except.error.inj h
      exact ⟨k, req, result⟩
    | ok uidRep =>
      rw [result] at h
      exact ih h

theorem batchLoop_regular {reqs : List ρ}
    (regular : ∀ i req reply, single i req = .ok reply → reply.Regular)
    {reply : ABDyeingBatchReply}
    (h : loop 0 reqs { ABDyeingBatchReply.new with isset := true } = .ok reply) :
    reply.Regular := by
  obtain ⟨items, rfl, length, each⟩ := batchLoop_items nil cons h
  refine ⟨nofun, fun info mem => ?_⟩
  obtain ⟨i, hi, rfl⟩ := List.mem_iff_getElem.mp mem
  exact regular _ _ _ (each i (length ▸ hi) hi).2

end Batch

namespace ABDyeingHandler

variable {city : CityHash} {handler : ABDyeingHandler} {thread : Nat} {faults : Nat → Faults}
  {batchFaults : Nat → Nat → Faults} {uid : Bytes}

theorem dyeingLan_regular {req : ABDyeingLanRequest} {reply : ABDyeingReply}
    (h : dyeingLan city handler thread faults .new uid req = .ok reply) : reply.Regular :=
  ((dyeingLan_answersWith thread req).reply reply h).isset

theorem dyeing_regular {req : ABDyeingRequest} {reply : ABDyeingReply}
    (h : dyeing city handler thread faults .new uid req = .ok reply) : reply.Regular :=
  dyeingLan_regular ((dyeing_eq_dyeingLan ..).symm.trans h)

theorem dyeing_error {req : ABDyeingRequest} {e : Abort Exception}
    (h : dyeing city handler thread faults .new uid req = .error e) : e = .undefined :=
  dyeingLan_error ((dyeing_eq_dyeingLan ..).symm.trans h)

theorem batchDyeingItems_cons (i : Nat) (info : ABDyeingUidReqInfo)
    (infos : List ABDyeingUidReqInfo) (reply : ABDyeingBatchReply) :
    batchDyeingItems city handler thread batchFaults i (info :: infos) reply = (do
      let uidRep ← dyeing city handler thread (batchFaults i) .new info.uid info.uidInfo
      batchDyeingItems city handler thread batchFaults (i + 1) infos
        { reply with uidRepInfos := reply.uidRepInfos ++ [⟨info.uid, uidRep⟩] }) := by
  simp only [batchDyeingItems, singleDyeing, bind_assoc, pure_bind]
  rfl

theorem batchDyeingLanItems_cons (i : Nat) (info : ABDyeingUidLanReqInfo)
    (infos : List ABDyeingUidLanReqInfo) (reply : ABDyeingBatchReply) :
    batchDyeingLanItems city handler thread batchFaults i (info :: infos) reply = (do
      let uidRep ← dyeingLan city handler thread (batchFaults i) .new info.uid info.uidLanInfo
      batchDyeingLanItems city handler thread batchFaults (i + 1) infos
        { reply with uidRepInfos := reply.uidRepInfos ++ [⟨info.uid, uidRep⟩] }) := by
  simp only [batchDyeingLanItems, singleLanDyeing, bind_assoc, pure_bind]
  rfl

theorem batchDyeing_regular {infos : List ABDyeingUidReqInfo} {reply : ABDyeingBatchReply}
    (h : batchDyeing city handler thread batchFaults .new infos = .ok reply) : reply.Regular := by
  rw [batchDyeing] at h
  split at h
  · obtain rfl := Except.ok.inj h
    exact ⟨fun _ => rfl, nofun⟩
  · exact batchLoop_regular (fun _ _ => rfl) batchDyeingItems_cons (fun _ _ _ => dyeing_regular) h

theorem batchDyeingLan_regular {infos : List ABDyeingUidLanReqInfo} {reply : ABDyeingBatchReply}
    (h : batchDyeingLan city handler thread batchFaults .new infos = .ok reply) :
    reply.Regular := by
  rw [batchDyeingLan] at h
  split at h
  · obtain rfl := Except.ok.inj h
    exact ⟨fun _ => rfl, nofun⟩
  · exact batchLoop_regular (fun _ _ => rfl) batchDyeingLanItems_cons
      (fun _ _ _ => dyeingLan_regular) h

theorem batchDyeing_error {infos : List ABDyeingUidReqInfo} {e : Abort Exception}
    (h : batchDyeing city handler thread batchFaults .new infos = .error e) : e = .undefined := by
  rw [batchDyeing] at h
  split at h
  · cases h
  · obtain ⟨i, info, hsingle⟩ := batchLoop_error (fun _ _ => rfl) batchDyeingItems_cons h
    exact dyeing_error hsingle

theorem batchDyeingLan_error {infos : List ABDyeingUidLanReqInfo} {e : Abort Exception}
    (h : batchDyeingLan city handler thread batchFaults .new infos = .error e) :
    e = .undefined := by
  rw [batchDyeingLan] at h
  split at h
  · cases h
  · obtain ⟨i, info, hsingle⟩ := batchLoop_error (fun _ _ => rfl) batchDyeingLanItems_cons h
    exact dyeingLan_error hsingle

end ABDyeingHandler

section Results

variable {t : TRuntime} (lawful : t.Lawful)

include lawful

open ABDyeingServiceProcessor

/-- Whatever the handler does for the arguments of a call is what the client of the call gets: the
reply, or the text of the exception. -/
theorem calls_answered (iface : ABDyeingServiceIf) :
    (∀ (this : ABDyeingReply) uid (req : ABDyeingRequest), StringFits uid → req.Fits →
      Sendable ABDyeingReply.Fits (iface.dyeing .new uid req) →
      ABDyeingServiceClient.dyeing t (transport t iface) this uid req =
        answered this.receive (iface.dyeing .new uid req)) ∧
    (∀ (this : ABDyeingReply) uid (req : ABDyeingLanRequest), StringFits uid → req.Fits →
      Sendable ABDyeingReply.Fits (iface.dyeingLan .new uid req) →
      ABDyeingServiceClient.dyeingLan t (transport t iface) this uid req =
        answered this.receive (iface.dyeingLan .new uid req)) ∧
    (∀ (this : ABDyeingBatchReply) (batchReqs : ABDyeingBatchRequest), batchReqs.Fits →
      Sendable ABDyeingBatchReply.Fits (iface.batchDyeing .new batchReqs) →
      ABDyeingServiceClient.batchDyeing t (transport t iface) this batchReqs =
        answered this.receive (iface.batchDyeing .new batchReqs)) ∧
    ∀ (this : ABDyeingBatchReply) (batchReqs : ABDyeingBatchLanRequest), batchReqs.Fits →
      Sendable ABDyeingBatchReply.Fits (iface.batchDyeingLan .new batchReqs) →
      ABDyeingServiceClient.batchDyeingLan t (transport t iface) this batchReqs =
        answered this.receive (iface.batchDyeingLan .new batchReqs) :=
  ⟨fun this _ _ uidFits => dyeing_answered lawful this uidFits,
    fun this _ _ uidFits => dyeingLan_answered lawful this uidFits,
    fun this _ => batchDyeing_answered lawful this,
    fun this _ => batchDyeingLan_answered lawful this⟩

omit lawful in
theorem calls_answered_binary :
    let reply : ABDyeingReply := ⟨.rcStatusOk, true, [⟨str "biz", str "7"⟩]⟩
    let iface : ABDyeingServiceIf :=
      { dyeing := fun _ _ _ => .ok reply
        dyeingLan := fun _ _ _ => .error (.exception (str "no language"))
        batchDyeing := fun _ _ => .ok ⟨.rcServerError, false, []⟩
        batchDyeingLan := fun _ _ => .error .undefined }
    let served := transport binaryRuntime iface
    ABDyeingServiceClient.dyeing binaryRuntime served .new (str "1") .new = .ok reply ∧
      ABDyeingServiceClient.dyeingLan binaryRuntime served .new (str "1") .new =
        .error (.exception (.application ⟨.unknown, str "no language"⟩)) ∧
      ABDyeingServiceClient.batchDyeing binaryRuntime served ⟨.rcStatusOk, true, []⟩ .new =
        .ok ⟨.rcServerError, true, []⟩ ∧
      ABDyeingServiceClient.batchDyeingLan binaryRuntime served .new .new = .error .undefined := by
  intro reply iface served
  obtain ⟨single, lan, batch, batchLan⟩ := calls_answered binaryRuntime_lawful iface
  have uidFits : StringFits (str "1") := by decide
  have fits : reply.Fits := fun _ =>
    ⟨by decide, List.forall_mem_singleton.mpr ⟨by decide, by decide⟩⟩
  have thrown : StringFits (str "no language") := by decide
  exact ⟨single .new _ .new uidFits ⟨by decide, by decide, by decide, nofun⟩ fits,
    lan .new _ .new uidFits ⟨by decide, by decide, by decide, by decide, nofun⟩ thrown,
    batch ⟨.rcStatusOk, true, []⟩ .new ⟨by decide, nofun⟩ nofun,
    batchLan .new .new ⟨by decide, nofun⟩ trivial⟩

/-- A client with a new reply gets the handler's own, and never sees an exception. -/
theorem handler_over_wire (city : CityHash) (handler : ABDyeingHandler) (thread : Nat)
    (faults : Nat → Faults) (batchFaults : Nat → Nat → Faults) (what : Exception → Bytes) :
    let served := transport t (handler.iface city thread faults batchFaults what)
    (∀ uid (req : ABDyeingRequest), StringFits uid → req.Fits →
      (∀ reply, handler.dyeing city thread faults .new uid req = .ok reply → reply.Fits) →
      ABDyeingServiceClient.dyeing t served .new uid req =
        delivered (handler.dyeing city thread faults .new uid req)) ∧
    (∀ uid (req : ABDyeingLanRequest), StringFits uid → req.Fits →
      (∀ reply, handler.dyeingLan city thread faults .new uid req = .ok reply → reply.Fits) →
      ABDyeingServiceClient.dyeingLan t served .new uid req =
        delivered (handler.dyeingLan city thread faults .new uid req)) ∧
    (∀ batchReqs : ABDyeingBatchRequest, batchReqs.Fits →
      (∀ reply, handler.batchDyeing city thread batchFaults .new batchReqs.uidReqInfos =
        .ok reply → reply.Fits) →
      ABDyeingServiceClient.batchDyeing t served .new batchReqs =
        delivered (handler.batchDyeing city thread batchFaults .new batchReqs.uidReqInfos)) ∧
    ∀ batchReqs : ABDyeingBatchLanRequest, batchReqs.Fits →
      (∀ reply, handler.batchDyeingLan city thread batchFaults .new batchReqs.uidLanReqInfos =
        .ok reply → reply.Fits) →
      ABDyeingServiceClient.batchDyeingLan t served .new batchReqs =
        delivered (handler.batchDyeingLan city thread batchFaults .new
          batchReqs.uidLanReqInfos) := by
  refine ⟨fun uid req uidFits fits replyFits => ?_, fun uid req uidFits fits replyFits => ?_,
    fun batchReqs fits replyFits => ?_, fun batchReqs fits replyFits => ?_⟩
  · have caught (e : Abort Exception)
        (h : handler.dyeing city thread faults .new uid req = .error e) :=
      ABDyeingHandler.dyeing_error h
    rw [dyeing_answered lawful _ uidFits fits (sendable_of replyFits caught)]
    exact answered_eq (fun _ h => (ABDyeingHandler.dyeing_regular h).receive) caught
  · have caught (e : Abort Exception)
        (h : handler.dyeingLan city thread faults .new uid req = .error e) :=
      ABDyeingHandler.dyeingLan_error h
    rw [dyeingLan_answered lawful _ uidFits fits (sendable_of replyFits caught)]
    exact answered_eq (fun _ h => (ABDyeingHandler.dyeingLan_regular h).receive) caught
  · have caught (e : Abort Exception)
        (h : handler.batchDyeing city thread batchFaults .new batchReqs.uidReqInfos = .error e) :=
      ABDyeingHandler.batchDyeing_error h
    rw [batchDyeing_answered lawful _ fits (sendable_of replyFits caught)]
    exact answered_eq (fun _ h => (ABDyeingHandler.batchDyeing_regular h).receive) caught
  · have caught (e : Abort Exception)
        (h : handler.batchDyeingLan city thread batchFaults .new batchReqs.uidLanReqInfos =
          .error e) := ABDyeingHandler.batchDyeingLan_error h
    rw [batchDyeingLan_answered lawful _ fits (sendable_of replyFits caught)]
    exact answered_eq (fun _ h => (ABDyeingHandler.batchDyeingLan_regular h).receive) caught

end Results

/-- The user `u` is in the white list. -/
def ABDyeingHandler.listing : ABDyeingHandler :=
  { blank [str "biz"] with
    whiteList := some
      ((DyeingWhiteListPlugin.new (str "/w")).pushConf (str "biz") (str "u") (str "7"))
    logics := fun _ => some ⟨str "fresh"⟩ }

theorem handler_over_wire_binary :
    let reply : ABDyeingReply := ⟨.rcStatusOk, true, [⟨str "biz", str "7"⟩]⟩
    let served := ABDyeingServiceProcessor.transport binaryRuntime (ABDyeingHandler.listing.iface
      (fun _ _ => 0) 0 (fun _ _ => none) (fun _ _ _ => none) fun _ => [])
    ABDyeingServiceClient.dyeing binaryRuntime served .new (str "u")
        ⟨str "noticias", [], [str "biz"]⟩ = .ok reply ∧
      ABDyeingServiceClient.dyeingLan binaryRuntime served .new (str "v")
        ⟨str "noticias", [], str "en", [str "biz"]⟩ = .ok ⟨.rcServerError, false, []⟩ ∧
      ABDyeingServiceClient.batchDyeing binaryRuntime served .new
        ⟨[⟨str "u", ⟨str "noticias", [], [str "biz"]⟩⟩]⟩ =
          .ok ⟨.rcStatusOk, true, [⟨str "u", reply⟩]⟩ ∧
      ABDyeingServiceClient.batchDyeingLan binaryRuntime served .new .new =
        .ok ⟨.rcStatusOk, true, []⟩ := by
  intro reply served
  obtain ⟨single, lan, batch, batchLan⟩ := handler_over_wire binaryRuntime_lawful (fun _ _ => 0)
    ABDyeingHandler.listing 0 (fun _ _ => none) (fun _ _ _ => none) fun _ => []
  have types : ListFits StringFits [str "biz"] :=
    ⟨by decide, List.forall_mem_singleton.mpr (by decide)⟩
  have fits : reply.Fits := fun _ =>
    ⟨by decide, List.forall_mem_singleton.mpr ⟨by decide, by decide⟩⟩
  refine ⟨single _ _ (by decide) ⟨by decide, by decide, types⟩ fun reply h => ?_,
    lan _ _ (by decide) ⟨by decide, by decide, by decide, types⟩ fun reply h => ?_,
    batch _ ⟨by decide, List.forall_mem_singleton.mpr ⟨by decide, by decide, by decide, types⟩⟩
      fun reply h => ?_,
    batchLan .new ⟨by decide, nofun⟩ fun reply h => ?_⟩ <;> obtain rfl := Except.ok.inj h
  · exact fits
  · exact nofun
  · exact fun _ => ⟨by decide, List.forall_mem_singleton.mpr ⟨by decide, fits⟩⟩
  · exact fun _ => ⟨by decide, nofun⟩

end ABDyeing
