import Mathlib.Data.List.Basic
import ABDyeing.Rpc

/-! The reply of `dyeing` and `DyeingLan`: its entries, the flag that the Thrift writer looks at and
the status, by what `onDyeing` answers for each type of the request alone. -/

namespace ABDyeing

open Lib

/-- What `onDyeing` answers for a type: an entry, nothing, or an exception. -/
abbrev Answer := Outcome Exception (Option ABDyeingEntry)

def DyeingLogic.answer (logic : DyeingLogic) (city : CityHash) (published : Published)
    (faults : Faults) (uid app appVer appLan type : Bytes) : Answer := do
  let (found, reply) ← logic.onDyeing city published faults uid app appVer appLan type .new
  return if found then reply.entries.head? else none

/-- The answers for the types of a request, each of them alone.  Without a logic no type is asked
for. -/
def ABDyeingHandler.answers (city : CityHash) (handler : ABDyeingHandler) (thread : Nat)
    (faults : Nat → Faults) (uid : Bytes) (req : ABDyeingLanRequest) : List Answer :=
  match handler.getLogic thread with
  | none => []
  | some logic => req.types.mapIdx fun i type =>
      logic.answer city handler.toPublished (faults i) uid req.app req.appVer req.appLan type

/-- The entries among the answers before the first one that is not returned. -/
def resolved : List Answer → List ABDyeingEntry
  | [] => []
  | .error _ :: _ => []
  | .ok entry :: rest => entry.toList ++ resolved rest

/-- The first answer that is not returned is this one. -/
def Stops (answers : List Answer) (e : Abort Exception) : Prop :=
  ∃ before after, answers = before ++ .error e :: after ∧ ∀ a ∈ before, ∃ entry, a = .ok entry

/-- The reply is made of the answers. -/
structure ABDyeingReply.MadeOf (answers : List Answer) (reply : ABDyeingReply) : Prop where
  isset : reply.isset = true ↔ reply.entries ≠ []
  entries : reply.entries = resolved answers
  fault : (∃ e, Stops answers (.exception e)) → reply.status = .rcServerFault
  noFault : (∀ e, ¬Stops answers (.exception e)) →
    reply.status = if reply.entries ≠ [] then .rcStatusOk else .rcServerError

/-- The call returns a reply that is made of the answers, unless one of them is undefined. -/
structure AnswersWith (types : List Bytes) (answers : List Answer)
    (result : Outcome Exception ABDyeingReply) : Prop where
  returns : (∃ reply, result = .ok reply) ↔ ¬Stops answers .undefined
  reply : ∀ reply, result = .ok reply → reply.MadeOf answers
  named : ∀ (i : Nat) (entry : ABDyeingEntry), answers[i]? = some (.ok (some entry)) →
    types[i]? = some entry.type

namespace DyeingLogic

variable {logic : DyeingLogic} {city : CityHash} {published : Published} {faults : Faults}
  {uid app appVer appLan type : Bytes}

/-- Whatever stands in the reply already, `onDyeing` fails, finds nothing, or pushes one entry. -/
theorem onDyeing_cases (logic : DyeingLogic) (city : CityHash) (published : Published)
    (faults : Faults) (uid app appVer appLan type : Bytes) :
    (∃ e, ∀ reply, logic.onDyeing city published faults uid app appVer appLan type reply =
      .error e) ∨
    (∀ reply, logic.onDyeing city published faults uid app appVer appLan type reply =
      .ok (false, reply)) ∨
    ∃ configId, ∀ reply, logic.onDyeing city published faults uid app appVer appLan type reply =
      .ok (true, reply.pushBack type configId) := by
  unfold onDyeing
  generalize faults.at .whiteList (.ok (handleWhiteList published.whiteList uid type)) = listed
  cases listed with
  | error e => exact .inl ⟨e, fun _ => rfl⟩
  | ok listed =>
    cases listed with
    | some configId => exact .inr (.inr ⟨configId, fun _ => rfl⟩)
    | none =>
      simp only [bind, Except.bind]
      cases logic.dyeingApp published faults uid app type with
      | error e => exact .inl ⟨e, fun _ => rfl⟩
      | ok name =>
        simp only
        generalize faults.at .online
          (handleOnlineHash city published.onlinePlugin uid name appVer appLan type) = online
        cases online with
        | error e => exact .inl ⟨e, fun _ => rfl⟩
        | ok online =>
          cases online with
          | none => exact .inr (.inl fun _ => rfl)
          | some configId => exact .inr (.inr ⟨configId, fun _ => rfl⟩)

/-- `onDyeing` pushes its answer, which is an entry of its type. -/
theorem onDyeing_eq :
    (∀ reply, logic.onDyeing city published faults uid app appVer appLan type reply =
      (logic.answer city published faults uid app appVer appLan type).map fun entry =>
        (entry.isSome, entry.elim reply fun entry =>
          { reply with isset := true, entries := reply.entries ++ [entry] })) ∧
    ∀ entry, logic.answer city published faults uid app appVer appLan type = .ok (some entry) →
      entry.type = type := by
  unfold answer
  rcases logic.onDyeing_cases city published faults uid app appVer appLan type with
    ⟨e, h⟩ | h | ⟨configId, h⟩
  · exact ⟨fun reply => by rw [h, h]; rfl, fun entry hentry => by rw [h] at hentry; cases hentry⟩
  · exact ⟨fun reply => by rw [h, h]; rfl, fun entry hentry => by rw [h] at hentry; cases hentry⟩
  · refine ⟨fun reply => by rw [h, h]; rfl, fun entry hentry => ?_⟩
    rw [h] at hentry
    exact (congrArg ABDyeingEntry.type (Option.some.inj (Except.ok.inj hentry))).symm

end DyeingLogic

/-- How a loop over these answers ends. -/
def ending : List Answer → Outcome Exception Unit
  | [] => .ok ()
  | .error e :: _ => .error e
  | .ok _ :: rest => ending rest

theorem not_stops_nil (e : Abort Exception) : ¬Stops [] e := by
  intro ⟨before, after, h, _⟩
  simp at h

theorem stops_error {e e' : Abort Exception} {rest : List Answer} :
    Stops (.error e :: rest) e' ↔ e = e' := by
  constructor
  · intro ⟨before, after, h, returned⟩
    cases before with
    | nil => exact Except.error.inj (List.cons.inj h).1
    | cons a before =>
      obtain ⟨entry, ha⟩ := returned a (by simp)
      rw [List.cons_append, ha] at h
      cases (List.cons.inj h).1
  · rintro rfl
    exact ⟨[], rest, rfl, by simp⟩

theorem stops_ok {entry : Option ABDyeingEntry} {rest : List Answer} {e : Abort Exception} :
    Stops (.ok entry :: rest) e ↔ Stops rest e := by
  constructor
  · intro ⟨before, after, h, returned⟩
    cases before with
    | nil => cases (List.cons.inj h).1
    | cons a before =>
      exact ⟨before, after, (List.cons.inj h).2, fun b hb => returned b (by simp [hb])⟩
  · intro ⟨before, after, h, returned⟩
    refine ⟨.ok entry :: before, after, by rw [h, List.cons_append], ?_⟩
    rw [List.forall_mem_cons]
    exact ⟨⟨entry, rfl⟩, returned⟩

theorem ending_eq_error {answers : List Answer} {e : Abort Exception} :
    ending answers = .error e ↔ Stops answers e := by
  induction answers with
  | nil => simp [ending, not_stops_nil]
  | cons a rest ih =>
    cases a with
    | error e' => rw [ending, stops_error, Except.error.injEq]
    | ok entry => rw [ending, stops_ok, ih]

namespace ABDyeingHandler

variable {city : CityHash} {handler : ABDyeingHandler} {faults : Nat → Faults}
  {uid app appVer appLan : Bytes}

/-- The loop pushes the entries of the answers up to where it stops, and keeps the flag in step. -/
theorem dyeingLanTypes_eq (city : CityHash) (handler : ABDyeingHandler) (faults : Nat → Faults)
    (uid app appVer appLan : Bytes) (logic : DyeingLogic) (types : List Bytes) (i : Nat)
    {reply : ABDyeingReply} (flag : reply.isset = true ↔ reply.entries ≠ []) :
    let answers := types.mapIdx fun k type =>
      logic.answer city handler.toPublished (faults (i + k)) uid app appVer appLan type
    ∃ final, dyeingLanTypes city handler logic faults uid app appVer appLan i types reply =
        (final, ending answers) ∧
      final.entries = reply.entries ++ resolved answers ∧
      (final.isset = true ↔ final.entries ≠ []) := by
  induction types generalizing i reply with
  | nil => exact ⟨reply, rfl, (List.append_nil _).symm, flag⟩
  | cons type types ih =>
    have shift : ∀ k, i + 1 + k = i + (k + 1) := by omega
    intro answers
    have hanswers : answers =
        logic.answer city handler.toPublished (faults i) uid app appVer appLan type ::
          types.mapIdx fun k type =>
            logic.answer city handler.toPublished (faults (i + 1 + k)) uid app appVer appLan type
      := by simp only [answers, List.mapIdx_cons, shift, Nat.add_zero]
    rw [hanswers, dyeingLanTypes, DyeingLogic.onDyeing_eq.1 reply]
    cases logic.answer city handler.toPublished (faults i) uid app appVer appLan type with
    | error e => exact ⟨reply, rfl, (List.append_nil _).symm, flag⟩
    | ok entry =>
      cases entry with
      | none => exact ih (i + 1) flag
      | some entry =>
        let pushed := { reply with isset := true, entries := reply.entries ++ [entry] }
        have hflag : pushed.isset = true ↔ pushed.entries ≠ [] := by simp [pushed]
        obtain ⟨final, hfinal, entries, isset⟩ := ih (i + 1) hflag
        refine ⟨final, hfinal, ?_, isset⟩
        rw [entries, resolved, Option.toList_some, List.append_assoc]

theorem answers_named (city : CityHash) (handler : ABDyeingHandler) (faults : Nat → Faults)
    (uid : Bytes) (thread : Nat) (req : ABDyeingLanRequest) (i : Nat) (entry : ABDyeingEntry)
    (h : (handler.answers city thread faults uid req)[i]? = some (.ok (some entry))) :
    req.types[i]? = some entry.type := by
  unfold answers at h
  split at h
  · simp at h
  · rw [List.getElem?_mapIdx, Option.map_eq_some_iff] at h
    obtain ⟨type, htype, hanswer⟩ := h
    rw [htype, DyeingLogic.onDyeing_eq.2 entry hanswer]

/-- What the call makes of the reply that its loop leaves. -/
def conclude (final : ABDyeingReply) : Outcome Exception Unit → Outcome Exception ABDyeingReply
  | .ok () => .ok { final with
      status := if final.entries ≠ [] then .rcStatusOk else .rcServerError }
  | .error (.exception _) => .ok { final with status := .rcServerFault }
  | .error .undefined => .error .undefined

theorem dyeingLan_eq (city : CityHash) (handler : ABDyeingHandler) (faults : Nat → Faults)
    (uid : Bytes) (thread : Nat) (req : ABDyeingLanRequest) :
    ∃ final : ABDyeingReply,
      final.entries = resolved (handler.answers city thread faults uid req) ∧
      (final.isset = true ↔ final.entries ≠ []) ∧
      dyeingLan city handler thread faults .new uid req =
        conclude final (ending (handler.answers city thread faults uid req)) := by
  have flag : ABDyeingReply.new.isset = true ↔ ABDyeingReply.new.entries ≠ [] := by decide
  unfold dyeingLan answers
  cases handler.getLogic thread with
  | none => exact ⟨.new, rfl, flag, rfl⟩
  | some logic =>
    simp only
    by_cases none : req.types = []
    · rw [none]
      exact ⟨.new, rfl, flag, rfl⟩
    · obtain ⟨final, hfinal, entries, hflag⟩ := dyeingLanTypes_eq city handler faults uid req.app
        req.appVer req.appLan logic req.types 0 flag
      simp only [Nat.zero_add] at hfinal entries
      refine ⟨final, entries, hflag, ?_⟩
      rw [if_neg (by simpa using none), hfinal]
      generalize ending _ = ended
      rcases ended with (_ | _) | _
      · rfl
      · rfl
      · simp only [conclude, List.isEmpty_iff, ne_eq, ite_not]
        split <;> rfl

theorem dyeingLan_answersWith (thread : Nat) (req : ABDyeingLanRequest) :
    AnswersWith req.types (handler.answers city thread faults uid req)
      (dyeingLan city handler thread faults .new uid req) := by
  have named := answers_named city handler faults uid thread req
  obtain ⟨final, entries, flag, hresult⟩ := dyeingLan_eq city handler faults uid thread req
  generalize handler.answers city thread faults uid req = answers at *
  have stops (e : Abort Exception) : Stops answers e ↔ ending answers = .error e :=
    ending_eq_error.symm
  rw [hresult]
  cases hending : ending answers with
  | ok _ =>
    have runs (e : Abort Exception) : ¬Stops answers e := by
      rw [stops, hending]
      exact fun h => by cases h
    refine ⟨iff_of_true ⟨_, rfl⟩ (runs _), fun reply h => ?_, named⟩
    obtain rfl := Except.ok.inj h
    exact ⟨flag, entries, fun ⟨e, he⟩ => absurd he (runs _), fun _ => rfl⟩
  | error e =>
    have unique (e' : Abort Exception) : Stops answers e' ↔ e = e' := by
      rw [stops, hending, Except.error.injEq]
    cases e with
    | exception e =>
      refine ⟨iff_of_true ⟨_, rfl⟩ (by rw [unique]; exact fun h => by cases h), fun reply h => ?_,
        named⟩
      obtain rfl := Except.ok.inj h
      exact ⟨flag, entries, fun _ => rfl, fun runs => absurd ((unique _).mpr rfl) (runs e)⟩
    | undefined =>
      refine ⟨?_, fun reply h => (by cases h), named⟩
      rw [unique]
      exact iff_of_false (fun ⟨_, h⟩ => by cases h) (not_not_intro rfl)

end ABDyeingHandler

/-- In every state, whatever a lookup throws: the reply is made of the answers for the types of the
request. -/
theorem replies_made_of_answers (city : CityHash) (handler : ABDyeingHandler) (thread : Nat)
    (faults : Nat → Faults) (uid : Bytes) :
    (∀ req : ABDyeingLanRequest,
      AnswersWith req.types (handler.answers city thread faults uid req)
        (handler.dyeingLan city thread faults .new uid req)) ∧
    (∀ req : ABDyeingRequest,
      AnswersWith req.types
        (handler.answers city thread faults uid ⟨req.app, req.appVer, [], req.types⟩)
        (handler.dyeing city thread faults .new uid req)) := by
  refine ⟨fun req => ABDyeingHandler.dyeingLan_answersWith thread req, fun req => ?_⟩
  rw [ABDyeingHandler.dyeing_eq_dyeingLan]
  exact ABDyeingHandler.dyeingLan_answersWith thread ⟨req.app, req.appVer, [], req.types⟩

theorem replies_made_of_answers_example :
    let req : ABDyeingLanRequest := ⟨str "app", [], [], [str "x", str "t", str "y"]⟩
    let faults : Nat → Faults := fun i => if i = 2 then onlineFault else fun _ => none
    ∃ reply, listingHandler.dyeingLan (fun _ _ => 0) 0 faults .new (str "u") req = .ok reply ∧
      reply.isset = true ∧ reply.entries = [⟨str "t", str "7"⟩] ∧
      reply.status = .rcServerFault := by
  intro req faults
  have hanswers : listingHandler.answers (fun _ _ => 0) 0 faults (str "u") req =
      [.ok none, .ok (some ⟨str "t", str "7"⟩), .error (.exception (.qconfig [] 0))] := rfl
  have stops (e : Abort Exception) :
      Stops (listingHandler.answers (fun _ _ => 0) 0 faults (str "u") req) e ↔
        .exception (.qconfig [] 0) = e := by
    rw [hanswers, stops_ok, stops_ok, stops_error]
  obtain ⟨returns, made, -⟩ :=
    (replies_made_of_answers (fun _ _ => 0) listingHandler 0 faults (str "u")).1 req
  obtain ⟨reply, hreply⟩ := returns.mpr (by rw [stops]; exact fun h => by cases h)
  obtain ⟨isset, entries, fault, -⟩ := made reply hreply
  rw [hanswers] at entries
  have pushed : reply.entries = [⟨str "t", str "7"⟩] := entries
  exact ⟨reply, hreply, isset.mpr (by simp [pushed]), pushed, fault ⟨_, (stops _).mpr rfl⟩⟩

end ABDyeing
