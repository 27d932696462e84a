import ABDyeing.Lib.BinaryProtocol
import ABDyeing.Thrift.Types

/-! Every struct is read as it was written, whatever follows it on the wire, as long as its lengths
are within the limit of the wire.  The list of a reply is optional: what the reader does not meet it
leaves as it was. -/

namespace ABDyeing

open Lib

section Fits

variable {α : Type}

def StringFits (s : Bytes) : Prop := s.length < WireValue.sizeLimit

instance (s : Bytes) : Decidable (StringFits s) := inferInstanceAs (Decidable (_ < _))

structure ListFits (fits : α → Prop) (elems : List α) : Prop where
  length : elems.length < WireValue.sizeLimit
  each : ∀ x ∈ elems, fits x

structure ABDyeingRequest.Fits (req : ABDyeingRequest) : Prop where
  app : StringFits req.app
  appVer : StringFits req.appVer
  types : ListFits StringFits req.types

structure ABDyeingLanRequest.Fits (req : ABDyeingLanRequest) : Prop where
  app : StringFits req.app
  appVer : StringFits req.appVer
  appLan : StringFits req.appLan
  types : ListFits StringFits req.types

structure ABDyeingUidReqInfo.Fits (info : ABDyeingUidReqInfo) : Prop where
  uid : StringFits info.uid
  uidInfo : info.uidInfo.Fits

structure ABDyeingUidLanReqInfo.Fits (info : ABDyeingUidLanReqInfo) : Prop where
  uid : StringFits info.uid
  uidLanInfo : info.uidLanInfo.Fits

def ABDyeingBatchRequest.Fits (req : ABDyeingBatchRequest) : Prop :=
  ListFits ABDyeingUidReqInfo.Fits req.uidReqInfos

def ABDyeingBatchLanRequest.Fits (req : ABDyeingBatchLanRequest) : Prop :=
  ListFits ABDyeingUidLanReqInfo.Fits req.uidLanReqInfos

structure ABDyeingEntry.Fits (entry : ABDyeingEntry) : Prop where
  type : StringFits entry.type
  configId : StringFits entry.configId

/-- A list that is not written need not fit. -/
def ABDyeingReply.Fits (reply : ABDyeingReply) : Prop :=
  reply.isset = true → ListFits ABDyeingEntry.Fits reply.entries

structure ABDyeingUidRepInfo.Fits (info : ABDyeingUidRepInfo) : Prop where
  uid : StringFits info.uid
  uidRep : info.uidRep.Fits

def ABDyeingBatchReply.Fits (reply : ABDyeingBatchReply) : Prop :=
  reply.isset = true → ListFits ABDyeingUidRepInfo.Fits reply.uidRepInfos

end Fits

/-- `this` when a reply has been read into it. -/
def ABDyeingReply.receive (this reply : ABDyeingReply) : ABDyeingReply :=
  if reply.isset then reply else { this with status := reply.status }

def ABDyeingUidRepInfo.receive (this info : ABDyeingUidRepInfo) : ABDyeingUidRepInfo :=
  ⟨info.uid, this.uidRep.receive info.uidRep⟩

def ABDyeingBatchReply.receive (this reply : ABDyeingBatchReply) : ABDyeingBatchReply :=
  if reply.isset then
    { reply with uidRepInfos := reply.uidRepInfos.map ABDyeingUidRepInfo.new.receive }
  else { this with status := reply.status }

/-- The flag of the optional list tells whether the list has entries. -/
def ABDyeingReply.Regular (reply : ABDyeingReply) : Prop :=
  reply.isset = true ↔ reply.entries ≠ []

theorem ABDyeingReply.Regular.receive {reply : ABDyeingReply} (regular : reply.Regular) :
    ABDyeingReply.new.receive reply = reply := by
  obtain ⟨status, isset, entries⟩ := reply
  cases isset with
  | true => rfl
  | false =>
    have empty : entries = [] := by simpa [ABDyeingReply.Regular] using regular
    rw [empty]
    rfl

structure ABDyeingBatchReply.Regular (reply : ABDyeingBatchReply) : Prop where
  isset : reply.isset = false → reply.uidRepInfos = []
  each : ∀ info ∈ reply.uidRepInfos, info.uidRep.Regular

theorem ABDyeingBatchReply.Regular.receive {reply : ABDyeingBatchReply}
    (regular : reply.Regular) : ABDyeingBatchReply.new.receive reply = reply := by
  obtain ⟨status, isset, uidRepInfos⟩ := reply
  cases isset with
  | true =>
    have same (info : ABDyeingUidRepInfo) (mem : info ∈ uidRepInfos) :
        ABDyeingUidRepInfo.new.receive info = info := by
      rw [ABDyeingUidRepInfo.receive]
      exact congrArg (ABDyeingUidRepInfo.mk info.uid) (regular.each info mem).receive
    rw [ABDyeingBatchReply.receive, if_pos rfl]
    simp only [List.map_congr_left same, List.map_id']
  | false =>
    obtain rfl := regular.isset rfl
    rfl

section RoundTrip

variable {p : TProtocol} (lawful : p.Lawful)

include lawful

theorem readStrings_write {types : List Bytes} (fit : ListFits StringFits types) (rest : Bytes) :
    p.readList p.readString (p.writeList .string p.writeString types ++ rest) =
      .ok (types, rest) :=
  lawful.readList_same fit.length (fun s mem rest => lawful.string s rest (fit.each s mem)) _ rest

theorem ABDyeingRequest.read_write (this : ABDyeingRequest) {req : ABDyeingRequest}
    (fits : req.Fits) (rest : Bytes) : this.read p (req.write p ++ rest) = .ok (req, rest) := by
  have app (rest : Bytes) := Reader.map_ok (lawful.string req.app rest fits.app)
    fun app => { this with app }
  have appVer (rest : Bytes) := Reader.map_ok (lawful.string req.appVer rest fits.appVer)
    fun appVer => { this with app := req.app, appVer }
  have types (rest : Bytes) := Reader.map_ok (readStrings_write lawful fits.types rest)
    fun types => { req with types }
  exact lawful.readRecord_writeStruct
    (.read rfl app (.read rfl appVer (.read rfl types (.stop _)))) (by simp) rest

theorem ABDyeingLanRequest.read_write (this : ABDyeingLanRequest) {req : ABDyeingLanRequest}
    (fits : req.Fits) (rest : Bytes) : this.read p (req.write p ++ rest) = .ok (req, rest) := by
  have app (rest : Bytes) := Reader.map_ok (lawful.string req.app rest fits.app)
    fun app => { this with app }
  have appVer (rest : Bytes) := Reader.map_ok (lawful.string req.appVer rest fits.appVer)
    fun appVer => { this with app := req.app, appVer }
  have appLan (rest : Bytes) := Reader.map_ok (lawful.string req.appLan rest fits.appLan)
    fun appLan => { req with appLan, types := this.types }
  have types (rest : Bytes) := Reader.map_ok (readStrings_write lawful fits.types rest)
    fun types => { req with types }
  exact lawful.readRecord_writeStruct (.read rfl app (.read rfl appVer (.read rfl appLan
    (.read rfl types (.stop _))))) (by simp) rest

theorem ABDyeingUidReqInfo.read_write (this : ABDyeingUidReqInfo) {info : ABDyeingUidReqInfo}
    (fits : info.Fits) (rest : Bytes) : this.read p (info.write p ++ rest) = .ok (info, rest) := by
  have uid (rest : Bytes) := Reader.map_ok (lawful.string info.uid rest fits.uid)
    fun uid => { this with uid }
  have uidInfo (rest : Bytes) :=
    Reader.map_ok (this.uidInfo.read_write lawful fits.uidInfo rest)
      fun uidInfo => { info with uidInfo }
  exact lawful.readRecord_writeStruct (.read rfl uid (.read rfl uidInfo (.stop _))) (by simp) rest

theorem ABDyeingUidLanReqInfo.read_write (this : ABDyeingUidLanReqInfo)
    {info : ABDyeingUidLanReqInfo} (fits : info.Fits) (rest : Bytes) :
    this.read p (info.write p ++ rest) = .ok (info, rest) := by
  have uid (rest : Bytes) := Reader.map_ok (lawful.string info.uid rest fits.uid)
    fun uid => { this with uid }
  have uidLanInfo (rest : Bytes) :=
    Reader.map_ok (this.uidLanInfo.read_write lawful fits.uidLanInfo rest)
      fun uidLanInfo => { info with uidLanInfo }
  exact lawful.readRecord_writeStruct (.read rfl uid (.read rfl uidLanInfo (.stop _)))
    (by simp) rest

theorem ABDyeingBatchRequest.read_write (this : ABDyeingBatchRequest) {req : ABDyeingBatchRequest}
    (fits : req.Fits) (rest : Bytes) : this.read p (req.write p ++ rest) = .ok (req, rest) := by
  have each (info : ABDyeingUidReqInfo) (mem : info ∈ req.uidReqInfos) (rest : Bytes) :=
    ABDyeingUidReqInfo.new.read_write lawful (fits.each info mem) rest
  have infos (rest : Bytes) := Reader.map_ok (lawful.readList_same fits.length each .struct rest)
    fun uidReqInfos => { req with uidReqInfos }
  exact lawful.readRecord_writeStruct (.read rfl infos (.stop _)) (by simp) rest

theorem ABDyeingBatchLanRequest.read_write (this : ABDyeingBatchLanRequest)
    {req : ABDyeingBatchLanRequest} (fits : req.Fits) (rest : Bytes) :
    this.read p (req.write p ++ rest) = .ok (req, rest) := by
  have each (info : ABDyeingUidLanReqInfo) (mem : info ∈ req.uidLanReqInfos) (rest : Bytes) :=
    ABDyeingUidLanReqInfo.new.read_write lawful (fits.each info mem) rest
  have infos (rest : Bytes) := Reader.map_ok (lawful.readList_same fits.length each .struct rest)
    fun uidLanReqInfos => { req with uidLanReqInfos }
  exact lawful.readRecord_writeStruct (.read rfl infos (.stop _)) (by simp) rest

theorem ABDyeingEntry.read_write (this : ABDyeingEntry) {entry : ABDyeingEntry}
    (fits : entry.Fits) (rest : Bytes) :
    this.read p (entry.write p ++ rest) = .ok (entry, rest) := by
  have type (rest : Bytes) := Reader.map_ok (lawful.string entry.type rest fits.type)
    fun type => { this with type }
  have configId (rest : Bytes) := Reader.map_ok (lawful.string entry.configId rest fits.configId)
    fun configId => { entry with configId }
  exact lawful.readRecord_writeStruct (.read rfl type (.read rfl configId (.stop _))) (by simp) rest

theorem readStatus_write (status : Status) (rest : Bytes) :
    readStatus p (p.writeI32 status.toInt32 ++ rest) = .ok (status, rest) := by
  rw [readStatus, Reader.bind_ok (lawful.i32 _ _), Status.ofInt32_toInt32]
  rfl

theorem ABDyeingReply.read_write (this : ABDyeingReply) {reply : ABDyeingReply}
    (fits : reply.Fits) (rest : Bytes) :
    this.read p (reply.write p ++ rest) = .ok (this.receive reply, rest) := by
  obtain ⟨status, isset, entries⟩ := reply
  have first (rest : Bytes) := Reader.map_ok (readStatus_write lawful status rest)
    fun status => { this with status }
  cases isset with
  | false => exact lawful.readRecord_writeStruct (.read rfl first (.stop _)) (by simp) rest
  | true =>
    have fit := fits rfl
    have each (entry : ABDyeingEntry) (mem : entry ∈ entries) (rest : Bytes) :=
      ABDyeingEntry.new.read_write lawful (fit.each entry mem) rest
    have list (rest : Bytes) := Reader.map_ok (lawful.readList_same fit.length each .struct rest)
      fun entries => ABDyeingReply.mk status true entries
    exact lawful.readRecord_writeStruct (.read rfl first (.read rfl list (.stop _))) (by simp) rest

theorem ABDyeingUidRepInfo.read_write (this : ABDyeingUidRepInfo) {info : ABDyeingUidRepInfo}
    (fits : info.Fits) (rest : Bytes) :
    this.read p (info.write p ++ rest) = .ok (this.receive info, rest) := by
  have uid (rest : Bytes) := Reader.map_ok (lawful.string info.uid rest fits.uid)
    fun uid => { this with uid }
  have uidRep (rest : Bytes) := Reader.map_ok (this.uidRep.read_write lawful fits.uidRep rest)
    fun uidRep => { info with uidRep }
  exact lawful.readRecord_writeStruct (.read rfl uid (.read rfl uidRep (.stop _))) (by simp) rest

theorem ABDyeingBatchReply.read_write (this : ABDyeingBatchReply) {reply : ABDyeingBatchReply}
    (fits : reply.Fits) (rest : Bytes) :
    this.read p (reply.write p ++ rest) = .ok (this.receive reply, rest) := by
  obtain ⟨status, isset, uidRepInfos⟩ := reply
  have first (rest : Bytes) := Reader.map_ok (readStatus_write lawful status rest)
    fun status => { this with status }
  cases isset with
  | false => exact lawful.readRecord_writeStruct (.read rfl first (.stop _)) (by simp) rest
  | true =>
    have fit := fits rfl
    have each (info : ABDyeingUidRepInfo) (mem : info ∈ uidRepInfos) (rest : Bytes) :=
      ABDyeingUidRepInfo.new.read_write lawful (fit.each info mem) rest
    have list (rest : Bytes) := Reader.map_ok
      (lawful.readList_writeList fit.length each .struct rest)
      fun uidRepInfos => ABDyeingBatchReply.mk status true uidRepInfos
    exact lawful.readRecord_writeStruct (.read rfl first (.read rfl list (.stop _))) (by simp) rest

end RoundTrip

/-- A request is read as it was written, whatever it is read into and whatever follows it. -/
theorem requests_read_back {p : TProtocol} (lawful : p.Lawful) (rest : Bytes) :
    (∀ this req : ABDyeingRequest, req.Fits →
      this.read p (req.write p ++ rest) = .ok (req, rest)) ∧
    (∀ this req : ABDyeingLanRequest, req.Fits →
      this.read p (req.write p ++ rest) = .ok (req, rest)) ∧
    (∀ this req : ABDyeingBatchRequest, req.Fits →
      this.read p (req.write p ++ rest) = .ok (req, rest)) ∧
    ∀ this req : ABDyeingBatchLanRequest, req.Fits →
      this.read p (req.write p ++ rest) = .ok (req, rest) :=
  ⟨fun this _ fits => this.read_write lawful fits rest,
    fun this _ fits => this.read_write lawful fits rest,
    fun this _ fits => this.read_write lawful fits rest,
    fun this _ fits => this.read_write lawful fits rest⟩

theorem requests_read_back_binary :
    let p := binaryProtocol TException.invalidData
    let req : ABDyeingRequest := ⟨str "noticias", str "1.2", [str "biz"]⟩
    let lan : ABDyeingLanRequest := ⟨str "noticias", str "1.2", str "en", [str "biz"]⟩
    let batch : ABDyeingBatchRequest := ⟨[⟨str "1", req⟩, ⟨str "2", req⟩]⟩
    let batchLan : ABDyeingBatchLanRequest := ⟨[⟨str "1", lan⟩]⟩
    ABDyeingRequest.new.read p (req.write p ++ [0]) = .ok (req, [0]) ∧
      ABDyeingLanRequest.new.read p (lan.write p ++ [0]) = .ok (lan, [0]) ∧
      ABDyeingBatchRequest.new.read p (batch.write p ++ [0]) = .ok (batch, [0]) ∧
      ABDyeingBatchLanRequest.new.read p (batchLan.write p ++ [0]) = .ok (batchLan, [0]) := by
  intro p req lan batch batchLan
  obtain ⟨single, singleLan, many, manyLan⟩ :=
    requests_read_back (binaryProtocol_lawful TException.invalidData) [0]
  have types : ListFits StringFits [str "biz"] :=
    ⟨by decide, List.forall_mem_singleton.mpr (by decide)⟩
  have fits : req.Fits := ⟨by decide, by decide, types⟩
  have lanFits : lan.Fits := ⟨by decide, by decide, by decide, types⟩
  refine ⟨single _ _ fits, singleLan _ _ lanFits, many _ _ ⟨by decide, ?_⟩,
    manyLan _ _ ⟨by decide, List.forall_mem_singleton.mpr ⟨by decide, lanFits⟩⟩⟩
  exact List.forall_mem_cons.mpr
    ⟨⟨by decide, fits⟩, List.forall_mem_singleton.mpr ⟨by decide, fits⟩⟩

/-- Into any struct, a reply is read as it was written, but for a list that was not written; a reply
whose flag is right is read by itself. -/
theorem replies_read_back {p : TProtocol} (lawful : p.Lawful) (rest : Bytes) :
    (∀ this reply : ABDyeingReply, reply.Fits →
      this.read p (reply.write p ++ rest) = .ok (this.receive reply, rest)) ∧
    (∀ this reply : ABDyeingBatchReply, reply.Fits →
      this.read p (reply.write p ++ rest) = .ok (this.receive reply, rest)) ∧
    (∀ reply : ABDyeingReply, reply.Fits → reply.Regular →
      ABDyeingReply.new.read p (reply.write p ++ rest) = .ok (reply, rest)) ∧
    ∀ reply : ABDyeingBatchReply, reply.Fits → reply.Regular →
      ABDyeingBatchReply.new.read p (reply.write p ++ rest) = .ok (reply, rest) := by
  refine ⟨fun this _ fits => this.read_write lawful fits rest,
    fun this _ fits => this.read_write lawful fits rest, fun reply fits regular => ?_,
    fun reply fits regular => ?_⟩
  · rw [ABDyeingReply.read_write lawful _ fits, regular.receive]
  · rw [ABDyeingBatchReply.read_write lawful _ fits, regular.receive]

theorem replies_read_back_binary :
    let p := binaryProtocol TException.invalidData
    let reply : ABDyeingReply := ⟨.rcStatusOk, true, [⟨str "biz", str "7"⟩]⟩
    let none : ABDyeingReply := ⟨.rcServerError, false, []⟩
    let batch : ABDyeingBatchReply := ⟨.rcStatusOk, true, [⟨str "1", reply⟩]⟩
    reply.read p (none.write p) = .ok ({ reply with status := .rcServerError }, []) ∧
      ABDyeingReply.new.read p (reply.write p) = .ok (reply, []) ∧
      batch.read p (batch.write p) = .ok (batch, []) ∧
      ABDyeingBatchReply.new.read p (batch.write p) = .ok (batch, []) := by
  intro p reply none batch
  obtain ⟨stale, many, same, manySame⟩ :=
    replies_read_back (binaryProtocol_lawful TException.invalidData) []
  have fits : reply.Fits := fun _ =>
    ⟨by decide, List.forall_mem_singleton.mpr ⟨by decide, by decide⟩⟩
  have batchFits : batch.Fits := fun _ =>
    ⟨by decide, List.forall_mem_singleton.mpr ⟨by decide, fits⟩⟩
  have regular : reply.Regular := by simp [reply, ABDyeingReply.Regular]
  have batchRegular : batch.Regular := ⟨nofun, List.forall_mem_singleton.mpr regular⟩
  have h₁ := stale reply none nofun
  have h₂ := same reply fits regular
  have h₃ := many batch batch batchFits
  have h₄ := manySame batch batchFits batchRegular
  rw [List.append_nil] at h₁ h₂ h₃ h₄
  exact ⟨h₁, h₂, h₃, h₄⟩

end ABDyeing
