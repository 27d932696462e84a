import ABDyeing.Handler

/-! The four RPCs of `ABDyeingHandler`.  `dyeing` and `DyeingLan` are written out twice in the
source, as are the two batches over them, and so they are here. -/

namespace ABDyeing

open Lib

structure ABDyeingRequest where
  app : Bytes
  appVer : Bytes
  types : List Bytes

structure ABDyeingLanRequest where
  app : Bytes
  appVer : Bytes
  appLan : Bytes
  types : List Bytes

structure ABDyeingUidReqInfo where
  uid : Bytes
  uidInfo : ABDyeingRequest

structure ABDyeingUidLanReqInfo where
  uid : Bytes
  uidLanInfo : ABDyeingLanRequest

structure ABDyeingUidRepInfo where
  uid : Bytes
  uidRep : ABDyeingReply
  deriving DecidableEq

/-- `ABDyeingBatchReply`; `isset` is `__isset._uid_rep_infos`. -/
structure ABDyeingBatchReply where
  status : Status
  isset : Bool
  uidRepInfos : List ABDyeingUidRepInfo
  deriving DecidableEq

def ABDyeingUidRepInfo.new : ABDyeingUidRepInfo := ⟨[], .new⟩

def ABDyeingBatchReply.new : ABDyeingBatchReply := ⟨.rcStatusOk, false, []⟩

namespace ABDyeingHandler

section Calls

variable (city : CityHash) (handler : ABDyeingHandler) (thread : Nat)

/-- The loop of `DyeingLan` from the type with number `i` on: the reply that it leaves, and how it
ends.  `faults i` are the exceptions at the type with number `i`. -/
def dyeingLanTypes (logic : DyeingLogic) (faults : Nat → Faults) (uid app appVer appLan : Bytes) :
    Nat → List Bytes → ABDyeingReply → ABDyeingReply × Outcome Exception Unit
  | _, [], reply => (reply, .ok ())
  | i, type :: types, reply =>
    match logic.onDyeing city handler.toPublished (faults i) uid app appVer appLan type reply with
    | .error e => (reply, .error e)
    | .ok (_, reply) => dyeingLanTypes logic faults uid app appVer appLan (i + 1) types reply

def dyeingLan (faults : Nat → Faults) (reply : ABDyeingReply) (uid : Bytes)
    (req : ABDyeingLanRequest) : Outcome Exception ABDyeingReply :=
  match handler.getLogic thread with
  | none => .ok { reply with status := .rcServerError }
  | some logic =>
    if req.types.isEmpty then .ok { reply with status := .rcServerError }
    else
      match dyeingLanTypes city handler logic faults uid req.app req.appVer req.appLan 0 req.types
        reply with
      | (reply, .ok ()) =>
        if reply.entries.isEmpty then .ok { reply with status := .rcServerError }
        else .ok { reply with status := .rcStatusOk }
      | (reply, .error (.exception _)) => .ok { reply with status := .rcServerFault }
      | (_, .error .undefined) => .error .undefined

/-- The loop of `dyeing`, where the language is empty. -/
def dyeingTypes (logic : DyeingLogic) (faults : Nat → Faults) (uid app appVer : Bytes) :
    Nat → List Bytes → ABDyeingReply → ABDyeingReply × Outcome Exception Unit
  | _, [], reply => (reply, .ok ())
  | i, type :: types, reply =>
    let appLan := []
    match logic.onDyeing city handler.toPublished (faults i) uid app appVer appLan type reply with
    | .error e => (reply, .error e)
    | .ok (_, reply) => dyeingTypes logic faults uid app appVer (i + 1) types reply

def dyeing (faults : Nat → Faults) (reply : ABDyeingReply) (uid : Bytes) (req : ABDyeingRequest) :
    Outcome Exception ABDyeingReply :=
  match handler.getLogic thread with
  | none => .ok { reply with status := .rcServerError }
  | some logic =>
    if req.types.isEmpty then .ok { reply with status := .rcServerError }
    else
      match dyeingTypes city handler logic faults uid req.app req.appVer 0 req.types reply with
      | (reply, .ok ()) =>
        if reply.entries.isEmpty then .ok { reply with status := .rcServerError }
        else .ok { reply with status := .rcStatusOk }
      | (reply, .error (.exception _)) => .ok { reply with status := .rcServerFault }
      | (_, .error .undefined) => .error .undefined

def singleDyeing (faults : Nat → Faults) (uidRepInfo : ABDyeingUidRepInfo)
    (uidReqInfo : ABDyeingUidReqInfo) : Outcome Exception ABDyeingUidRepInfo := do
  let reply ← dyeing city handler thread faults uidRepInfo.uidRep uidReqInfo.uid uidReqInfo.uidInfo
  return ⟨uidReqInfo.uid, reply⟩

def singleLanDyeing (faults : Nat → Faults) (uidRepInfo : ABDyeingUidRepInfo)
    (uidLanReqInfo : ABDyeingUidLanReqInfo) : Outcome Exception ABDyeingUidRepInfo := do
  let reply ← dyeingLan city handler thread faults uidRepInfo.uidRep uidLanReqInfo.uid
    uidLanReqInfo.uidLanInfo
  return ⟨uidLanReqInfo.uid, reply⟩

def batchDyeingItems (faults : Nat → Nat → Faults) :
    Nat → List ABDyeingUidReqInfo → ABDyeingBatchReply → Outcome Exception ABDyeingBatchReply
  | _, [], reply => .ok reply
  | i, uidReqInfo :: uidReqInfos, reply => do
    let uidRepInfo ← singleDyeing city handler thread (faults i) .new uidReqInfo
    batchDyeingItems faults (i + 1) uidReqInfos
      { reply with uidRepInfos := reply.uidRepInfos ++ [uidRepInfo] }

/-- `BatchDyeing`; `faults i` are the exceptions of the request with number `i`. -/
def batchDyeing (faults : Nat → Nat → Faults) (reply : ABDyeingBatchReply)
    (uidReqInfos : List ABDyeingUidReqInfo) : Outcome Exception ABDyeingBatchReply :=
  if uidReqInfos.length > 1000 then .ok { reply with status := .rcServerError }
  else batchDyeingItems city handler thread faults 0 uidReqInfos { reply with isset := true }

def batchDyeingLanItems (faults : Nat → Nat → Faults) :
    Nat → List ABDyeingUidLanReqInfo → ABDyeingBatchReply → Outcome Exception ABDyeingBatchReply
  | _, [], reply => .ok reply
  | i, uidLanReqInfo :: uidLanReqInfos, reply => do
    let uidRepInfo ← singleLanDyeing city handler thread (faults i) .new uidLanReqInfo
    batchDyeingLanItems faults (i + 1) uidLanReqInfos
      { reply with uidRepInfos := reply.uidRepInfos ++ [uidRepInfo] }

def batchDyeingLan (faults : Nat → Nat → Faults) (reply : ABDyeingBatchReply)
    (uidLanReqInfos : List ABDyeingUidLanReqInfo) : Outcome Exception ABDyeingBatchReply :=
  if uidLanReqInfos.length > 1000 then .ok { reply with status := .rcServerError }
  else batchDyeingLanItems city handler thread faults 0 uidLanReqInfos { reply with isset := true }

end Calls

theorem dyeingTypes_eq (city : CityHash) (handler : ABDyeingHandler) (logic : DyeingLogic)
    (faults : Nat → Faults) (uid app appVer : Bytes) (i : Nat) (types : List Bytes)
    (reply : ABDyeingReply) :
    dyeingTypes city handler logic faults uid app appVer i types reply =
      dyeingLanTypes city handler logic faults uid app appVer [] i types reply := by
  induction types generalizing i reply with
  | nil => rfl
  | cons type types ih =>
    simp only [dyeingTypes, dyeingLanTypes]
    cases logic.onDyeing city handler.toPublished (faults i) uid app appVer [] type reply with
    | error e => rfl
    | ok result => exact ih (i + 1) result.2

theorem dyeing_eq_dyeingLan (city : CityHash) (handler : ABDyeingHandler) (thread : Nat)
    (faults : Nat → Faults) (reply : ABDyeingReply) (uid app appVer : Bytes) (types : List Bytes) :
    dyeing city handler thread faults reply uid ⟨app, appVer, types⟩ =
      dyeingLan city handler thread faults reply uid ⟨app, appVer, [], types⟩ := by
  simp only [dyeing, dyeingLan, dyeingTypes_eq]

theorem dyeingLan_error {city : CityHash} {handler : ABDyeingHandler} {thread : Nat}
    {faults : Nat → Faults} {reply : ABDyeingReply} {uid : Bytes} {req : ABDyeingLanRequest}
    {e : Abort Exception} (h : dyeingLan city handler thread faults reply uid req = .error e) :
    e = .undefined := by
  unfold dyeingLan at h
  split at h
  · cases h
  · split at h
    · cases h
    · split at h
      · split at h <;> cases h
      · cases h
      · exact (Except.error.inj h).symm

end ABDyeingHandler

section Batch

variable {ρ : Type} (single : Nat → ρ → Outcome Exception ABDyeingReply) (uid : ρ → Bytes)

/-- The batch returns where every request alone does, and then its items are the uids and the
replies of the requests, in their order. -/
structure Itemwise (reqs : List ρ) (batch : Outcome Exception ABDyeingBatchReply) : Prop where
  returns : (∀ i (h : i < reqs.length), ∃ reply, single i reqs[i] = .ok reply) →
    ∃ reply, batch = .ok reply
  length : ∀ reply, batch = .ok reply → reply.uidRepInfos.length = reqs.length
  items : ∀ reply, batch = .ok reply → ∀ i (h : i < reqs.length)
    (h' : i < reply.uidRepInfos.length), reply.uidRepInfos[i].uid = uid reqs[i] ∧
      single i reqs[i] = .ok reply.uidRepInfos[i].uidRep
  status : ∀ reply, batch = .ok reply → reply.status = .rcStatusOk ∧ reply.isset = true

def BatchAgrees (reqs : List ρ) (batch : Outcome Exception ABDyeingBatchReply) : Prop :=
  if reqs.length ≤ 1000 then Itemwise single uid reqs batch
  else batch = .ok ⟨.rcServerError, false, []⟩

variable {single uid}
  {loop : Nat → List ρ → ABDyeingBatchReply → Outcome Exception ABDyeingBatchReply}
  (nil : ∀ i reply, loop i [] reply = .ok reply)
  (cons : ∀ i req reqs reply, loop i (req :: reqs) reply = (do
    let uidRep ← single i req
    loop (i + 1) reqs { reply with uidRepInfos := reply.uidRepInfos ++ [⟨uid req, uidRep⟩] }))

include nil cons

theorem batchLoop_returns {reqs : List ρ} {k : Nat}
    (h : ∀ i (hi : i < reqs.length), ∃ reply, single (k + i) reqs[i] = .ok reply)
    (reply : ABDyeingBatchReply) : ∃ out, loop k reqs reply = .ok out := by
  induction reqs generalizing k reply with
  | nil => exact ⟨reply, nil k reply⟩
  | cons req reqs ih =>
    obtain ⟨uidRep, hsingle⟩ := h 0 (by simp)
    have hsingle : single k req = .ok uidRep := hsingle
    have hrest : ∀ i (hi : i < reqs.length), ∃ reply, single (k + 1 + i) reqs[i] = .ok reply := by
      intro i hi
      have := h (i + 1) (by simpa using hi)
      rwa [List.getElem_cons_succ, ← Nat.add_assoc, Nat.add_right_comm] at this
    obtain ⟨out, hout⟩ := ih hrest _
    exact ⟨out, by rw [cons, hsingle]; exact hout⟩

theorem batchLoop_items {reqs : List ρ} {k : Nat} {reply out : ABDyeingBatchReply}
    (h : loop k reqs reply = .ok out) :
    ∃ items, out = { reply with uidRepInfos := reply.uidRepInfos ++ items } ∧
      items.length = reqs.length ∧ ∀ i (hi : i < reqs.length) (hi' : i < items.length),
        items[i].uid = uid reqs[i] ∧ single (k + i) reqs[i] = .ok items[i].uidRep := by
  induction reqs generalizing k reply with
  | nil =>
    rw [nil, Except.ok.injEq] at h
    exact ⟨[], by simp [← h], rfl, by simp⟩
  | cons req reqs ih =>
    rw [cons] at h
    obtain ⟨uidRep, hsingle, h⟩ := bind_eq_ok.mp h
    obtain ⟨items, rfl, hlength, hitems⟩ := ih h
    refine ⟨⟨uid req, uidRep⟩ :: items, by simp, by simp [hlength], fun i hi hi' => ?_⟩
    cases i with
    | zero => exact ⟨rfl, hsingle⟩
    | succ i =>
      have := hitems i (by simpa using hi) (by simpa using hi')
      rwa [Nat.add_right_comm, Nat.add_assoc] at this

theorem itemwise_loop (reqs : List ρ) :
    Itemwise single uid reqs (loop 0 reqs { ABDyeingBatchReply.new with isset := true }) := by
  have result (reply : ABDyeingBatchReply)
      (h : loop 0 reqs { ABDyeingBatchReply.new with isset := true } = .ok reply) :=
    batchLoop_items nil cons h
  constructor
  · intro h
    exact batchLoop_returns nil cons (by simpa using h) _
  · intro reply h
    obtain ⟨items, rfl, hlength, -⟩ := result reply h
    exact hlength
  · intro reply h i hi hi'
    obtain ⟨items, rfl, hlength, hitems⟩ := result reply h
    have := hitems i hi (hlength ▸ hi)
    rwa [Nat.zero_add] at this
  · intro reply h
    obtain ⟨items, rfl, -, -⟩ := result reply h
    exact ⟨rfl, rfl⟩

end Batch

open ABDyeingHandler in
/-- In every state `dyeing` answers as `DyeingLan` does for the empty language, no exception keeps a
call from answering, and each batch answers its requests as its single call does. -/
theorem rpcs_agree (city : CityHash) (handler : ABDyeingHandler) (thread : Nat) :
    (∀ faults uid req e,
      dyeingLan city handler thread faults .new uid req = .error e → e = .undefined) ∧
    (∀ faults uid app appVer types,
      dyeing city handler thread faults .new uid ⟨app, appVer, types⟩ =
        dyeingLan city handler thread faults .new uid ⟨app, appVer, [], types⟩) ∧
    (∀ faults uidReqInfos,
      BatchAgrees (fun i req => dyeing city handler thread (faults i) .new req.uid req.uidInfo)
        ABDyeingUidReqInfo.uid uidReqInfos
        (batchDyeing city handler thread faults .new uidReqInfos)) ∧
    (∀ faults uidLanReqInfos,
      BatchAgrees
        (fun i req => dyeingLan city handler thread (faults i) .new req.uid req.uidLanInfo)
        ABDyeingUidLanReqInfo.uid uidLanReqInfos
        (batchDyeingLan city handler thread faults .new uidLanReqInfos)) := by
  refine ⟨fun _ _ _ _ => dyeingLan_error, fun faults uid app appVer types =>
    dyeing_eq_dyeingLan city handler thread faults .new uid app appVer types, ?_, ?_⟩
  · intro faults uidReqInfos
    unfold BatchAgrees batchDyeing
    split
    · rw [if_neg (by omega)]
      exact itemwise_loop (fun _ _ => rfl) (fun _ _ _ _ => by
        simp only [batchDyeingItems, singleDyeing, bind_assoc, pure_bind]; rfl) uidReqInfos
    · rw [if_pos (by omega)]
      rfl
  · intro faults uidLanReqInfos
    unfold BatchAgrees batchDyeingLan
    split
    · rw [if_neg (by omega)]
      exact itemwise_loop (fun _ _ => rfl) (fun _ _ _ _ => by
        simp only [batchDyeingLanItems, singleLanDyeing, bind_assoc, pure_bind]; rfl)
        uidLanReqInfos
    · rw [if_pos (by omega)]
      rfl

/-- The user `u` is on the white list of the type `t`, and nothing else is loaded. -/
def listingHandler : ABDyeingHandler :=
  { ABDyeingHandler.blank [str "t"] with
    whiteList := some ((DyeingWhiteListPlugin.new (str "/w")).loadText (str "t") (str "u=7")).2
    logics := fun _ => some ⟨str "fresh"⟩ }

def onlineFault : Faults
  | .online => some (.qconfig [] 0)
  | .whiteList | .pushUser | .freshUser => none

theorem rpcs_agree_example :
    let faults : Nat → Nat → Faults := fun i _ => if i = 0 then onlineFault else fun _ => none
    let reqs : List ABDyeingUidReqInfo :=
      [⟨str "v", ⟨str "app", [], [str "t"]⟩⟩, ⟨str "u", ⟨str "app", [], [str "t"]⟩⟩]
    ∃ reply, listingHandler.batchDyeing (fun _ _ => 0) 0 faults .new reqs = .ok reply ∧
      reply.uidRepInfos[1]? =
        some ⟨str "u", ⟨.rcStatusOk, true, [⟨str "t", str "7"⟩]⟩⟩ := by
  intro faults reqs
  have agrees := (rpcs_agree (fun _ _ => 0) listingHandler 0).2.2.1 faults reqs
  rw [BatchAgrees, if_pos (by decide)] at agrees
  have failed : listingHandler.dyeing (fun _ _ => 0) 0 (faults 0) .new (str "v")
      ⟨str "app", [], [str "t"]⟩ = .ok ⟨.rcServerFault, false, []⟩ := rfl
  have listed : listingHandler.dyeing (fun _ _ => 0) 0 (faults 1) .new (str "u")
      ⟨str "app", [], [str "t"]⟩ = .ok ⟨.rcStatusOk, true, [⟨str "t", str "7"⟩]⟩ := rfl
  obtain ⟨reply, hreply⟩ := agrees.returns fun i h => match i with
    | 0 => ⟨_, failed⟩
    | 1 => ⟨_, listed⟩
  have two : 1 < reply.uidRepInfos.length := by
    rw [agrees.length reply hreply]
    decide
  obtain ⟨uid, single⟩ := agrees.items reply hreply 1 (by decide) two
  have item : reply.uidRepInfos[1] = ⟨str "u", ⟨.rcStatusOk, true, [⟨str "t", str "7"⟩]⟩⟩ :=
    congrArg₂ ABDyeingUidRepInfo.mk uid (Except.ok.inj (single.symm.trans listed))
  exact ⟨reply, hreply, by rw [List.getElem?_eq_getElem two, item]⟩

end ABDyeing
