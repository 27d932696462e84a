import ABDyeing.Thrift.Calls

/-! What the processor makes of messages that its own clients do not send: of methods that it does
not know, of the arguments of another method, and of arguments that are missing. -/

namespace ABDyeing

open Lib ABDyeingServiceProcessor

section Named

variable {t : TRuntime} {iface : ABDyeingServiceIf} {fname : Bytes} {seqid : Int32}
  {s answer rest : Bytes}

theorem processCall_named {α β : Type} {readArgs : TReader α} {method : α → Outcome Bytes β}
    {writeReply : β → Bytes}
    (h : processCall t fname readArgs method writeReply seqid s = .ok (answer, rest)) :
    ∃ mtype body, answer = t.writeMessageBegin fname mtype seqid ++ body ∧
      (mtype = .reply ∨ mtype = .exception) := by
  rw [processCall] at h
  obtain ⟨⟨args, left⟩, -, h⟩ := bind_eq_ok.mp h
  cases result : method args with
  | ok success =>
    simp only [result] at h
    obtain ⟨rfl, -⟩ := Prod.mk.inj (Except.ok.inj h)
    exact ⟨.reply, _, rfl, .inl rfl⟩
  | error e =>
    cases e with
    | exception what =>
      simp only [result] at h
      obtain ⟨rfl, -⟩ := Prod.mk.inj (Except.ok.inj h)
      exact ⟨.exception, _, rfl, .inr rfl⟩
    | undefined =>
      simp only [result] at h
      cases h

theorem dispatchCall_named (h : dispatchCall t iface fname seqid s = .ok (answer, rest)) :
    ∃ mtype body, answer = t.writeMessageBegin fname mtype seqid ++ body ∧
      (mtype = .reply ∨ mtype = .exception) := by
  rw [dispatchCall] at h
  cases listed : (processMap t iface).lookup fname with
  | none =>
    simp only [listed] at h
    obtain ⟨⟨skipped, left⟩, -, h⟩ := bind_eq_ok.mp h
    obtain ⟨rfl, -⟩ := Prod.mk.inj (Except.ok.inj h)
    exact ⟨.exception, _, rfl, .inr rfl⟩
  | some process =>
    simp only [listed] at h
    obtain ⟨before, after, entries, -⟩ := List.lookup_eq_some_iff.mp listed
    have mem : (fname, process) ∈ processMap t iface := by
      rw [entries]
      exact List.mem_append_right before List.mem_cons_self
    simp only [processMap, List.mem_cons, List.not_mem_nil, or_false, Prod.mk.injEq] at mem
    rcases mem with ⟨rfl, rfl⟩ | ⟨rfl, rfl⟩ | ⟨rfl, rfl⟩ | ⟨rfl, rfl⟩ <;>
      exact processCall_named h

end Named

section Answers

variable {t : TRuntime} (lawful : t.Lawful)

include lawful

/-- Every answer has the name and the number of what it answers, whatever was sent. -/
theorem answers_under_own_name (iface : ABDyeingServiceIf) {fname : Bytes}
    (nameFits : StringFits fname) {seqid : Int32} {s answer rest : Bytes}
    (h : dispatchCall t iface fname seqid s = .ok (answer, rest)) :
    ∃ mtype body, t.readMessageBegin answer = .ok ((fname, mtype, seqid), body) ∧
      (mtype = .reply ∨ mtype = .exception) := by
  obtain ⟨mtype, body, rfl, kind⟩ := dispatchCall_named h
  exact ⟨mtype, body, lawful.protocol.messageBegin fname mtype seqid body nameFits, kind⟩

omit lawful in
theorem answers_under_own_name_binary :
    let iface := ABDyeingHandler.listing.iface (fun _ _ => 0) 0 (fun _ _ => none)
      (fun _ _ _ => none) fun _ => []
    ∃ answer, dispatchCall binaryRuntime iface (str "dye") 7 [0] = .ok (answer, []) ∧
      ∃ mtype body, binaryRuntime.readMessageBegin answer = .ok ((str "dye", mtype, 7), body) ∧
        (mtype = .reply ∨ mtype = .exception) := by
  intro iface
  have answered : dispatchCall binaryRuntime iface (str "dye") 7 [0] = .ok (_, []) := rfl
  exact ⟨_, answered, answers_under_own_name binaryRuntime_lawful iface (by decide) answered⟩

/-- A message of a method that there is not is read to its end, whatever its arguments, and answered
with an exception, which any method of a client throws. -/
theorem unknown_method (iface : ABDyeingServiceIf) {fname : Bytes}
    (messageFits : StringFits (str "Invalid method name: '" ++ fname ++ str "'"))
    (unlisted : fname ∉ [str "dyeing", str "DyeingLan", str "BatchDyeing", str "BatchDyeingLan"])
    {values : List (Int16 × WireValue)} (fit : WireValue.FitFields values) (seqid : Int32)
    (rest : Bytes) :
    ∃ answer, dispatchCall t iface fname seqid ((WireValue.struct values).write t.toProtocol ++
        rest) = .ok (answer, rest) ∧
      ∀ {α : Type} name (readReply : α → TReader α) reply after,
        ABDyeingServiceClient.recv t name readReply reply (answer ++ after) =
          .error (.exception (.application
            ⟨.unknownMethod, str "Invalid method name: '" ++ fname ++ str "'"⟩)) := by
  have nameFits : StringFits fname := by
    unfold StringFits at *
    simp only [List.length_append] at messageFits
    omega
  have none : (processMap t iface).lookup fname = none := by
    rw [List.lookup_eq_none_iff]
    simpa [processMap] using unlisted
  have skipped := lawful.protocol.skip (.struct values) rest fit
  simp only [dispatchCall, none]
  refine ⟨_, Reader.map_ok skipped _, fun name readReply reply after => ?_⟩
  rw [List.append_assoc]
  exact recv_exception lawful nameFits name readReply reply messageFits seqid after

omit lawful in
theorem unknown_method_binary :
    let iface := ABDyeingHandler.listing.iface (fun _ _ => 0) 0 (fun _ _ => none)
      (fun _ _ _ => none) fun _ => []
    ∃ answer, dispatchCall binaryRuntime iface (str "dye") 7
        ((WireValue.struct [(1, .i64 5)]).write binaryRuntime.toProtocol ++ [9]) =
          .ok (answer, [9]) ∧
      ∀ {α : Type} name (readReply : α → TReader α) reply after,
        ABDyeingServiceClient.recv binaryRuntime name readReply reply (answer ++ after) =
          .error (.exception (.application
            ⟨.unknownMethod, str "Invalid method name: '" ++ str "dye" ++ str "'"⟩)) := by
  intro iface
  have fit : WireValue.FitFields [(1, .i64 5)] := ⟨trivial, trivial⟩
  exact unknown_method binaryRuntime_lawful iface (by decide) (by decide) fit 7 [9]

end Answers

section Arguments

variable {t : TRuntime} {α β γ : Type}

theorem processCall_error {name : Bytes} {readArgs : TReader α} {method : α → Outcome Bytes β}
    {writeReply : β → Bytes} {s : Bytes} {e : Abort TException} (fails : readArgs s = .error e)
    (seqid : Int32) : processCall t name readArgs method writeReply seqid s = .error e :=
  Reader.bind_error fails _

/-- No field with this number holds a struct. -/
def StructMissing (id : Int16) (values : List (Int16 × WireValue)) : Prop :=
  ∀ f ∈ values, f.1 = id → f.2.type ≠ .struct

variable (lawful : t.Lawful) {values : List (Int16 × WireValue)}
  (fit : WireValue.FitFields values)

include lawful fit

/-- Of arguments without the request, at most the user is read. -/
theorem dyeingArgs_missing (missing : StructMissing 2 values) (rest : Bytes) :
    ∃ args : ABDyeingService.DyeingArgs, args.req = .new ∧
      ABDyeingService.DyeingArgs.read t.toProtocol ⟨[], .new⟩
        ((WireValue.struct values).write t.toProtocol ++ rest) = .ok (args, rest) := by
  refine lawful.protocol.readRecord_keeps fit ?_ (fun f mem field found args kept => ?_) _ rest
  · rfl
  obtain ⟨known, number, type⟩ := FieldCase.of_find found
  simp only [ABDyeingService.DyeingArgs.fields, List.mem_cons, List.not_mem_nil, or_false] at known
  rcases known with rfl | rfl
  · exact ⟨{ args with uid := f.2.text }, kept, fun rest =>
      Reader.map_ok (readString_text lawful.protocol type.symm (fit.of_mem mem) rest) _⟩
  · exact absurd type.symm (missing f mem number.symm)

theorem dyeingLanArgs_missing (missing : StructMissing 2 values) (rest : Bytes) :
    ∃ args : ABDyeingService.DyeingLanArgs, args.req = .new ∧
      ABDyeingService.DyeingLanArgs.read t.toProtocol ⟨[], .new⟩
        ((WireValue.struct values).write t.toProtocol ++ rest) = .ok (args, rest) := by
  refine lawful.protocol.readRecord_keeps fit ?_ (fun f mem field found args kept => ?_) _ rest
  · rfl
  obtain ⟨known, number, type⟩ := FieldCase.of_find found
  simp only [ABDyeingService.DyeingLanArgs.fields, List.mem_cons, List.not_mem_nil, or_false]
    at known
  rcases known with rfl | rfl
  · exact ⟨{ args with uid := f.2.text }, kept, fun rest =>
      Reader.map_ok (readString_text lawful.protocol type.symm (fit.of_mem mem) rest) _⟩
  · exact absurd type.symm (missing f mem number.symm)

theorem batchDyeingArgs_missing (missing : StructMissing 1 values) (rest : Bytes) :
    ∃ args : ABDyeingService.BatchDyeingArgs, args.batchReqs = .new ∧
      ABDyeingService.BatchDyeingArgs.read t.toProtocol ⟨.new⟩
        ((WireValue.struct values).write t.toProtocol ++ rest) = .ok (args, rest) := by
  refine lawful.protocol.readRecord_keeps fit ?_ (fun f mem field found args kept => ?_) _ rest
  · rfl
  obtain ⟨known, number, type⟩ := FieldCase.of_find found
  obtain rfl := List.mem_singleton.mp known
  exact absurd type.symm (missing f mem number.symm)

theorem batchDyeingLanArgs_missing (missing : StructMissing 1 values) (rest : Bytes) :
    ∃ args : ABDyeingService.BatchDyeingLanArgs, args.batchReqs = .new ∧
      ABDyeingService.BatchDyeingLanArgs.read t.toProtocol ⟨.new⟩
        ((WireValue.struct values).write t.toProtocol ++ rest) = .ok (args, rest) := by
  refine lawful.protocol.readRecord_keeps fit ?_ (fun f mem field found args kept => ?_) _ rest
  · rfl
  obtain ⟨known, number, type⟩ := FieldCase.of_find found
  obtain rfl := List.mem_singleton.mp known
  exact absurd type.symm (missing f mem number.symm)

end Arguments

section Kinds

variable {t : TRuntime} (lawful : t.Lawful)

include lawful

theorem dyeingLanArgs_other (this : ABDyeingService.DyeingLanArgs) {uid : Bytes}
    (uidFits : StringFits uid) {req : ABDyeingRequest} (fits : req.Fits) (rest : Bytes) :
    this.read t.toProtocol (ABDyeingService.DyeingArgs.write t.toProtocol ⟨uid, req⟩ ++ rest) =
      .error (.exception .invalidData) := by
  have first (rest : Bytes) := Reader.map_ok (lawful.protocol.string uid rest uidFits)
    fun uid => { this with uid }
  have fails (rest : Bytes) := Reader.bind_error (this.req.read_other lawful.protocol fits rest)
    fun req => (return ABDyeingService.DyeingLanArgs.mk uid req : TReader _)
  exact Protocol.readRecord_error lawful.protocol (.read rfl first (.stop _)) rfl fails _ _ rest

theorem dyeingArgs_other (this : ABDyeingService.DyeingArgs) {uid : Bytes}
    (uidFits : StringFits uid) {req : ABDyeingLanRequest} (fits : req.Fits) (rest : Bytes) :
    this.read t.toProtocol (ABDyeingService.DyeingLanArgs.write t.toProtocol ⟨uid, req⟩ ++ rest) =
      .error (.exception .invalidData) := by
  have first (rest : Bytes) := Reader.map_ok (lawful.protocol.string uid rest uidFits)
    fun uid => { this with uid }
  have fails (rest : Bytes) := Reader.bind_error (this.req.read_other lawful.protocol fits rest)
    fun req => (return ABDyeingService.DyeingArgs.mk uid req : TReader _)
  exact Protocol.readRecord_error lawful.protocol (.read rfl first (.stop _)) rfl fails _ _ rest

theorem batchDyeingLanArgs_other (this : ABDyeingService.BatchDyeingLanArgs)
    {req : ABDyeingBatchRequest} (fits : req.Fits) (filled : req.uidReqInfos ≠ []) (rest : Bytes) :
    this.read t.toProtocol (ABDyeingService.BatchDyeingArgs.write t.toProtocol ⟨req⟩ ++ rest) =
      .error (.exception .invalidData) := by
  have fails (rest : Bytes) := Reader.bind_error
    (this.batchReqs.read_other lawful.protocol fits filled rest)
    fun req => (return ABDyeingService.BatchDyeingLanArgs.mk req : TReader _)
  exact Protocol.readRecord_error lawful.protocol (.stop _) rfl fails _ _ rest

theorem batchDyeingArgs_other (this : ABDyeingService.BatchDyeingArgs)
    {req : ABDyeingBatchLanRequest} (fits : req.Fits) (filled : req.uidLanReqInfos ≠ [])
    (rest : Bytes) :
    this.read t.toProtocol (ABDyeingService.BatchDyeingLanArgs.write t.toProtocol ⟨req⟩ ++ rest) =
      .error (.exception .invalidData) := by
  have fails (rest : Bytes) := Reader.bind_error
    (this.batchReqs.read_other lawful.protocol fits filled rest)
    fun req => (return ABDyeingService.BatchDyeingArgs.mk req : TReader _)
  exact Protocol.readRecord_error lawful.protocol (.stop _) rfl fails _ _ rest

/-- A request of one kind is never taken for one of the other: sent to the method of the other kind,
alone or in a batch, it is invalid, and the handler is not called. -/
theorem kinds_not_confused (iface : ABDyeingServiceIf) (seqid : Int32) (rest : Bytes) :
    (∀ uid (req : ABDyeingRequest), StringFits uid → req.Fits →
      dispatchCall t iface (str "DyeingLan") seqid
        (ABDyeingService.DyeingArgs.write t.toProtocol ⟨uid, req⟩ ++ rest) =
          .error (.exception .invalidData)) ∧
    (∀ uid (req : ABDyeingLanRequest), StringFits uid → req.Fits →
      dispatchCall t iface (str "dyeing") seqid
        (ABDyeingService.DyeingLanArgs.write t.toProtocol ⟨uid, req⟩ ++ rest) =
          .error (.exception .invalidData)) ∧
    (∀ req : ABDyeingBatchRequest, req.Fits → req.uidReqInfos ≠ [] →
      dispatchCall t iface (str "BatchDyeingLan") seqid
        (ABDyeingService.BatchDyeingArgs.write t.toProtocol ⟨req⟩ ++ rest) =
          .error (.exception .invalidData)) ∧
    ∀ req : ABDyeingBatchLanRequest, req.Fits → req.uidLanReqInfos ≠ [] →
      dispatchCall t iface (str "BatchDyeing") seqid
        (ABDyeingService.BatchDyeingLanArgs.write t.toProtocol ⟨req⟩ ++ rest) =
          .error (.exception .invalidData) :=
  ⟨fun _ _ uidFits fits =>
      processCall_error (dyeingLanArgs_other lawful _ uidFits fits rest) seqid,
    fun _ _ uidFits fits => processCall_error (dyeingArgs_other lawful _ uidFits fits rest) seqid,
    fun _ fits filled =>
      processCall_error (batchDyeingLanArgs_other lawful _ fits filled rest) seqid,
    fun _ fits filled => processCall_error (batchDyeingArgs_other lawful _ fits filled rest) seqid⟩

omit lawful in
theorem kinds_not_confused_binary :
    let iface := ABDyeingHandler.listing.iface (fun _ _ => 0) 0 (fun _ _ => none)
      (fun _ _ _ => none) fun _ => []
    let req : ABDyeingRequest := ⟨str "noticias", str "1.2", [str "biz"]⟩
    let lan : ABDyeingLanRequest := ⟨str "noticias", str "1.2", str "en", [str "biz"]⟩
    let p := binaryRuntime.toProtocol
    dispatchCall binaryRuntime iface (str "DyeingLan") 7
        (ABDyeingService.DyeingArgs.write p ⟨str "u", req⟩ ++ []) =
          .error (.exception .invalidData) ∧
      dispatchCall binaryRuntime iface (str "dyeing") 7
        (ABDyeingService.DyeingLanArgs.write p ⟨str "u", lan⟩ ++ []) =
          .error (.exception .invalidData) ∧
      dispatchCall binaryRuntime iface (str "BatchDyeingLan") 7
        (ABDyeingService.BatchDyeingArgs.write p ⟨⟨[⟨str "u", req⟩]⟩⟩ ++ []) =
          .error (.exception .invalidData) ∧
      dispatchCall binaryRuntime iface (str "BatchDyeing") 7
        (ABDyeingService.BatchDyeingLanArgs.write p ⟨⟨[⟨str "u", lan⟩]⟩⟩ ++ []) =
          .error (.exception .invalidData) := by
  intro iface req lan p
  obtain ⟨other, otherLan, many, manyLan⟩ := kinds_not_confused binaryRuntime_lawful iface 7 []
  have types : ListFits StringFits [str "biz"] :=
    ⟨by decide, List.forall_mem_singleton.mpr (by decide)⟩
  have fits : req.Fits := ⟨by decide, by decide, types⟩
  have lanFits : lan.Fits := ⟨by decide, by decide, by decide, types⟩
  exact ⟨other _ _ (by decide) fits, otherLan _ _ (by decide) lanFits,
    many ⟨_⟩ ⟨by decide, List.forall_mem_singleton.mpr ⟨by decide, fits⟩⟩ (by simp),
    manyLan ⟨_⟩ ⟨by decide, List.forall_mem_singleton.mpr ⟨by decide, lanFits⟩⟩ (by simp)⟩

end Kinds

section Results

variable {t : TRuntime} (lawful : t.Lawful)

theorem dyeingLan_new (city : CityHash) (handler : ABDyeingHandler) (thread : Nat)
    (faults : Nat → Faults) (uid : Bytes) :
    handler.dyeingLan city thread faults .new uid .new = .ok ⟨.rcServerError, false, []⟩ := by
  rw [ABDyeingHandler.dyeingLan]
  cases handler.getLogic thread <;> rfl

theorem dyeing_new (city : CityHash) (handler : ABDyeingHandler) (thread : Nat)
    (faults : Nat → Faults) (uid : Bytes) :
    handler.dyeing city thread faults .new uid .new = .ok ⟨.rcServerError, false, []⟩ :=
  (ABDyeingHandler.dyeing_eq_dyeingLan ..).trans (dyeingLan_new city handler thread faults uid)

/-- The message of a reply. -/
def replyMessage {α : Type} (t : TRuntime) (name : Bytes) (writeReply : α → Bytes) (seqid : Int32)
    (success : α) : Bytes :=
  t.writeMessageBegin name .reply seqid ++
    ABDyeingService.Result.write t.toProtocol writeReply ⟨true, success⟩

include lawful

/-- A call whose request is missing is answered as one with an empty request: a single call as an
error of the server, and a batch as done. -/
theorem calls_without_request (city : CityHash) (handler : ABDyeingHandler) (thread : Nat)
    (faults : Nat → Faults) (batchFaults : Nat → Nat → Faults) (what : Exception → Bytes)
    {values : List (Int16 × WireValue)} (fit : WireValue.FitFields values) (seqid : Int32)
    (rest : Bytes) :
    let iface := handler.iface city thread faults batchFaults what
    let sent := (WireValue.struct values).write t.toProtocol ++ rest
    let single : ABDyeingReply := ⟨.rcServerError, false, []⟩
    let batch : ABDyeingBatchReply := ⟨.rcStatusOk, true, []⟩
    (StructMissing 2 values →
      dispatchCall t iface (str "dyeing") seqid sent =
          .ok (replyMessage t (str "dyeing") (·.write t.toProtocol) seqid single, rest) ∧
        dispatchCall t iface (str "DyeingLan") seqid sent =
          .ok (replyMessage t (str "DyeingLan") (·.write t.toProtocol) seqid single, rest)) ∧
    (StructMissing 1 values →
      dispatchCall t iface (str "BatchDyeing") seqid sent =
          .ok (replyMessage t (str "BatchDyeing") (·.write t.toProtocol) seqid batch, rest) ∧
        dispatchCall t iface (str "BatchDyeingLan") seqid sent =
          .ok (replyMessage t (str "BatchDyeingLan") (·.write t.toProtocol) seqid batch,
            rest)) := by
  intro iface sent single batch
  refine ⟨fun missing => ⟨?_, ?_⟩, fun missing => ⟨?_, ?_⟩⟩
  · obtain ⟨⟨uid, req⟩, rfl, reads⟩ := dyeingArgs_missing lawful fit missing rest
    have result : iface.dyeing .new uid .new = .ok single :=
      congrArg (mapException what) (dyeing_new city handler thread faults uid)
    exact processCall_reply reads result seqid
  · obtain ⟨⟨uid, req⟩, rfl, reads⟩ := dyeingLanArgs_missing lawful fit missing rest
    have result : iface.dyeingLan .new uid .new = .ok single :=
      congrArg (mapException what) (dyeingLan_new city handler thread faults uid)
    exact processCall_reply reads result seqid
  · obtain ⟨⟨batchReqs⟩, rfl, reads⟩ := batchDyeingArgs_missing lawful fit missing rest
    have result : iface.batchDyeing .new .new = .ok batch := rfl
    exact processCall_reply reads result seqid
  · obtain ⟨⟨batchReqs⟩, rfl, reads⟩ := batchDyeingLanArgs_missing lawful fit missing rest
    have result : iface.batchDyeingLan .new .new = .ok batch := rfl
    exact processCall_reply reads result seqid

omit lawful in
theorem calls_without_request_binary :
    let iface := ABDyeingHandler.listing.iface (fun _ _ => 0) 0 (fun _ _ => none)
      (fun _ _ _ => none) fun _ => []
    let sent := (WireValue.struct [(2, .i64 5)]).write binaryRuntime.toProtocol ++ [9]
    let single := replyMessage binaryRuntime (str "dyeing")
      (ABDyeingReply.write binaryRuntime.toProtocol) 7 ⟨.rcServerError, false, []⟩
    let batch := replyMessage binaryRuntime (str "BatchDyeing")
      (ABDyeingBatchReply.write binaryRuntime.toProtocol) 7 ⟨.rcStatusOk, true, []⟩
    dispatchCall binaryRuntime iface (str "dyeing") 7 sent = .ok (single, [9]) ∧
      dispatchCall binaryRuntime iface (str "BatchDyeing") 7 sent = .ok (batch, [9]) := by
  intro iface sent single batch
  have fit : WireValue.FitFields [(2, .i64 5)] := ⟨trivial, trivial⟩
  obtain ⟨alone, together⟩ := calls_without_request binaryRuntime_lawful (fun _ _ => 0)
    ABDyeingHandler.listing 0 (fun _ _ => none) (fun _ _ _ => none) (fun _ => []) fit 7 [9]
  exact ⟨(alone (by simp [StructMissing, WireValue.type])).1,
    (together (by simp [StructMissing, WireValue.type])).1⟩

end Results

end ABDyeing
