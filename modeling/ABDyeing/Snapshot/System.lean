import ABDyeing.FlushPolicy
import ABDyeing.Rpc

/-! One call of `DyeingLan` beside one `flushPolicy`.  The call reads the two shared pointers anew
for each type, the flush assigns the one and then the other, and any number of assignments may fall
between two reads; so a reply can be made up of old and new versions. -/

namespace ABDyeing

open Lib

/-- The assignments to the shared pointers that a flush makes. -/
inductive Publication
  | whiteList (version : Option DyeingWhiteListPlugin)
  | onlinePlugin (version : Option DyeingOnlinePlugin)

def Publication.apply (published : Published) : Publication → Published
  | .whiteList version => { published with whiteList := version }
  | .onlinePlugin version => { published with onlinePlugin := version }

/-- Where a call is: before a type, with the white list to be read next; past the white list, with
the online plugin to be read next under the name `dyeingApp`; or at its end. -/
inductive Point
  | types (logic : DyeingLogic) (i : Nat) (types : List Bytes)
  | online (logic : DyeingLogic) (i : Nat) (dyeingApp type : Bytes) (rest : List Bytes)
  | returned (result : Outcome Exception ABDyeingReply)

/-- A call and a flush: what is published, what the flush has left to publish, where the call is,
and the reply as far as it has come. -/
structure System where
  published : Published
  writes : List Publication
  point : Point
  reply : ABDyeingReply

inductive Actor
  | call
  | flush
  deriving DecidableEq

/-- What a call makes of the reply that its loop leaves. -/
def closing : ABDyeingReply × Outcome Exception Unit → Outcome Exception ABDyeingReply
  | (reply, .ok ()) =>
    if reply.entries.isEmpty then .ok { reply with status := .rcServerError }
    else .ok { reply with status := .rcStatusOk }
  | (reply, .error (.exception _)) => .ok { reply with status := .rcServerFault }
  | (_, .error .undefined) => .error .undefined

namespace System

section Steps

variable (city : CityHash) (faults : Nat → Faults) (uid : Bytes) (req : ABDyeingLanRequest)

/-- The step of `onDyeing` that reads the white list, or the end of the loop. -/
def readWhiteList (s : System) (logic : DyeingLogic) (i : Nat) : List Bytes → System
  | [] => { s with point := .returned (closing (s.reply, .ok ())) }
  | type :: rest =>
    match (faults i).at .whiteList
        (.ok (DyeingLogic.handleWhiteList s.published.whiteList uid type)) with
    | .error e => { s with point := .returned (closing (s.reply, .error e)) }
    | .ok (some configId) =>
      { s with point := .types logic (i + 1) rest, reply := s.reply.pushBack type configId }
    | .ok none =>
      match logic.dyeingApp s.published (faults i) uid req.app type with
      | .error e => { s with point := .returned (closing (s.reply, .error e)) }
      | .ok dyeingApp => { s with point := .online logic i dyeingApp type rest }

/-- The step of `onDyeing` that reads the online plugin. -/
def readOnline (s : System) (logic : DyeingLogic) (i : Nat) (dyeingApp type : Bytes)
    (rest : List Bytes) : System :=
  match (faults i).at .online (DyeingLogic.handleOnlineHash city s.published.onlinePlugin uid
      dyeingApp req.appVer req.appLan type) with
  | .error e => { s with point := .returned (closing (s.reply, .error e)) }
  | .ok (some configId) =>
    { s with point := .types logic (i + 1) rest, reply := s.reply.pushBack type configId }
  | .ok none => { s with point := .types logic (i + 1) rest }

def callStep (s : System) : System :=
  match s.point with
  | .types logic i types => s.readWhiteList faults uid req logic i types
  | .online logic i dyeingApp type rest =>
    s.readOnline city faults uid req logic i dyeingApp type rest
  | .returned _ => s

def flushStep (s : System) : System :=
  match s.writes with
  | [] => s
  | write :: writes => { s with published := write.apply s.published, writes := writes }

def step (s : System) : Actor → System
  | .call => s.callStep city faults uid req
  | .flush => s.flushStep

def run (s : System) (schedule : List Actor) : System :=
  schedule.foldl (step city faults uid req) s

end Steps

/-- A call that begins when the flush has its two assignments still to make. -/
def start (handler : ABDyeingHandler) (thread : Nat) (req : ABDyeingLanRequest)
    (reply : ABDyeingReply) (whiteList : Option DyeingWhiteListPlugin)
    (onlinePlugin : Option DyeingOnlinePlugin) : System :=
  { published := handler.toPublished
    writes := [.whiteList whiteList, .onlinePlugin onlinePlugin]
    point :=
      match handler.getLogic thread with
      | none => .returned (.ok { reply with status := .rcServerError })
      | some logic =>
        if req.types.isEmpty then .returned (.ok { reply with status := .rcServerError })
        else .types logic 0 req.types
    reply := reply }

end System

section Versions

variable (city : CityHash) (faults : Nat → Faults) (uid : Bytes) (req : ABDyeingLanRequest)
  (versions : Nat → Published)

/-- The loop of a call that finds `versions i` published at the type with the number `i`. -/
def typesWith (logic : DyeingLogic) :
    Nat → List Bytes → ABDyeingReply → ABDyeingReply × Outcome Exception Unit
  | _, [], reply => (reply, .ok ())
  | i, type :: types, reply =>
    match logic.onDyeing city (versions i) (faults i) uid req.app req.appVer req.appLan type
        reply with
    | .error e => (reply, .error e)
    | .ok (_, reply) => typesWith logic (i + 1) types reply

def replyWith (handler : ABDyeingHandler) (thread : Nat) (reply : ABDyeingReply) :
    Outcome Exception ABDyeingReply :=
  match handler.getLogic thread with
  | none => .ok { reply with status := .rcServerError }
  | some logic =>
    if req.types.isEmpty then .ok { reply with status := .rcServerError }
    else closing (typesWith city faults uid req versions logic 0 req.types reply)

/-- The result of the call from `s` on, where it finds these versions. -/
def System.outcome (s : System) : Outcome Exception ABDyeingReply :=
  match s.point with
  | .types logic i types => closing (typesWith city faults uid req versions logic i types s.reply)
  | .online logic i dyeingApp type rest =>
    closing (match (faults i).at .online (DyeingLogic.handleOnlineHash city
        (versions i).onlinePlugin uid dyeingApp req.appVer req.appLan type) with
      | .error e => (s.reply, .error e)
      | .ok (some configId) => typesWith city faults uid req versions logic (i + 1) rest
          (s.reply.pushBack type configId)
      | .ok none => typesWith city faults uid req versions logic (i + 1) rest s.reply)
  | .returned result => result

end Versions

section Steps

variable {city : CityHash} {faults : Nat → Faults} {uid : Bytes} {req : ABDyeingLanRequest}
  {versions : Nat → Published}

theorem dyeingLanTypes_eq_typesWith (handler : ABDyeingHandler) (logic : DyeingLogic) (i : Nat)
    (types : List Bytes) (reply : ABDyeingReply) :
    ABDyeingHandler.dyeingLanTypes city handler logic faults uid req.app req.appVer req.appLan i
        types reply =
      typesWith city faults uid req (fun _ => handler.toPublished) logic i types reply := by
  induction types generalizing i reply with
  | nil => rfl
  | cons type types ih =>
    rw [ABDyeingHandler.dyeingLanTypes, typesWith]
    cases logic.onDyeing city handler.toPublished (faults i) uid req.app req.appVer req.appLan type
      reply with
    | error e => rfl
    | ok result => exact ih (i + 1) result.2

/-- A call that nothing is published beside is the call of the other theorems. -/
theorem dyeingLan_eq_replyWith (handler : ABDyeingHandler) (thread : Nat) (reply : ABDyeingReply) :
    ABDyeingHandler.dyeingLan city handler thread faults reply uid req =
      replyWith city faults uid req (fun _ => handler.toPublished) handler thread reply := by
  unfold ABDyeingHandler.dyeingLan replyWith
  cases handler.getLogic thread with
  | none => rfl
  | some logic =>
    simp only [dyeingLanTypes_eq_typesWith]
    split
    · rfl
    · rcases typesWith city faults uid req (fun _ => handler.toPublished) logic 0 req.types
        reply with ⟨reply, (_ | _) | _⟩ <;> rfl

variable (city faults uid req) in
theorem typesWith_congr {others : Nat → Published} (logic : DyeingLogic) {i : Nat}
    {types : List Bytes} (same : ∀ k, i ≤ k → k < i + types.length → versions k = others k)
    (reply : ABDyeingReply) :
    typesWith city faults uid req versions logic i types reply =
      typesWith city faults uid req others logic i types reply := by
  induction types generalizing i reply with
  | nil => rfl
  | cons type types ih =>
    rw [List.length_cons] at same
    have rest (reply : ABDyeingReply) := ih (i := i + 1)
      (fun k hk hlt => same k (by omega) (by omega)) reply
    rw [typesWith, typesWith, same i le_rfl (by omega)]
    cases logic.onDyeing city (others i) (faults i) uid req.app req.appVer req.appLan type
      reply with
    | error e => rfl
    | ok result => exact rest result.2

namespace System

variable {s : System} {w o : Nat}

variable (city faults uid req) in
/-- A step of the call ends it, answers a type, or goes from the white list of a type to the online
plugin. -/
theorem callStep_cases (s : System) :
    (∃ result, s.callStep city faults uid req = { s with point := .returned result }) ∨
    (∃ logic i types rest reply, s.point = .types logic i types ∧ rest.length < types.length ∧
      s.callStep city faults uid req =
        { s with point := .types logic (i + 1) rest, reply := reply }) ∨
    (∃ logic i types name type rest, s.point = .types logic i types ∧
      rest.length < types.length ∧
      s.callStep city faults uid req = { s with point := .online logic i name type rest }) ∨
    (∃ logic i name type rest reply, s.point = .online logic i name type rest ∧
      s.callStep city faults uid req =
        { s with point := .types logic (i + 1) rest, reply := reply }) := by
  obtain ⟨published, writes, point, reply⟩ := s
  cases point with
  | returned result => exact .inl ⟨result, rfl⟩
  | types logic i types =>
    cases types with
    | nil => exact .inl ⟨_, rfl⟩
    | cons type rest =>
      simp only [callStep, readWhiteList]
      cases (faults i).at .whiteList
          (.ok (DyeingLogic.handleWhiteList published.whiteList uid type)) with
      | error e => exact .inl ⟨_, rfl⟩
      | ok answer =>
        cases answer with
        | some configId => exact .inr (.inl ⟨logic, i, _, rest, _, rfl, by simp, rfl⟩)
        | none =>
          cases logic.dyeingApp published (faults i) uid req.app type with
          | error e => exact .inl ⟨_, rfl⟩
          | ok name => exact .inr (.inr (.inl ⟨logic, i, _, name, type, rest, rfl, by simp, rfl⟩))
  | online logic i name type rest =>
    simp only [callStep, readOnline]
    cases (faults i).at .online (DyeingLogic.handleOnlineHash city published.onlinePlugin uid
        name req.appVer req.appLan type) with
    | error e => exact .inl ⟨_, rfl⟩
    | ok answer =>
      cases answer with
      | some configId => exact .inr (.inr (.inr ⟨logic, i, name, type, rest, _, rfl, rfl⟩))
      | none => exact .inr (.inr (.inr ⟨logic, i, name, type, rest, reply, rfl, rfl⟩))

variable (city faults uid req) in
theorem callStep_frame (s : System) :
    (s.callStep city faults uid req).published = s.published ∧
      (s.callStep city faults uid req).writes = s.writes := by
  rcases callStep_cases city faults uid req s with
    ⟨_, h⟩ | ⟨_, _, _, _, _, _, _, h⟩ | ⟨_, _, _, _, _, _, _, _, h⟩ | ⟨_, _, _, _, _, _, _, h⟩ <;>
  simp [h]

/-- The next reads are the one of the white list with the number `w` and the one of the online
plugin with the number `o`. -/
def Next (s : System) (w o : Nat) : Prop :=
  match s.point with
  | .types _ i _ => w = i ∧ o = i
  | .online _ i _ _ _ => w = i + 1 ∧ o = i
  | .returned _ => True

/-- The number of the next read is below the one of `w` and `o` that belongs to it. -/
def Passes (s : System) (w o : Nat) : Prop :=
  match s.point with
  | .types _ i _ => i < w
  | .online _ i _ _ _ => i < o
  | .returned _ => True

/-- What the next read meets is what `versions` has at its number. -/
def Sees (versions : Nat → Published) (s : System) : Prop :=
  match s.point with
  | .types _ i _ => (versions i).whiteList = s.published.whiteList
  | .online _ i _ _ _ => (versions i).onlinePlugin = s.published.onlinePlugin
  | .returned _ => True

/-- The sources that a flush of the policies leaves alone. -/
def SameUsers (versions : Nat → Published) (published : Published) : Prop :=
  ∀ k, (versions k).freshUser = published.freshUser ∧ (versions k).pushUser = published.pushUser ∧
    (versions k).kq = published.kq

variable (city faults uid req) in
theorem outcome_callStep (sees : s.Sees versions) (users : SameUsers versions s.published) :
    (s.callStep city faults uid req).outcome city faults uid req versions =
      s.outcome city faults uid req versions := by
  obtain ⟨published, writes, point, reply⟩ := s
  cases point with
  | returned result => rfl
  | types logic i types =>
    cases types with
    | nil => rfl
    | cons type rest =>
      have white : (versions i).whiteList = published.whiteList := sees
      have app : logic.dyeingApp (versions i) (faults i) uid req.app type =
          logic.dyeingApp published (faults i) uid req.app type := by
        obtain ⟨hfresh, hpush, hkq⟩ := users i
        simp only at hfresh hpush hkq
        simp only [DyeingLogic.dyeingApp, hfresh, hpush, hkq]
      simp only [callStep, readWhiteList, outcome, typesWith, DyeingLogic.onDyeing, white, app]
      cases (faults i).at .whiteList
          (.ok (DyeingLogic.handleWhiteList published.whiteList uid type)) with
      | error e => rfl
      | ok answer =>
        cases answer with
        | some configId => rfl
        | none =>
          cases logic.dyeingApp published (faults i) uid req.app type with
          | error e => rfl
          | ok name =>
            simp only [bind, Except.bind]
            cases (faults i).at .online (DyeingLogic.handleOnlineHash city
                (versions i).onlinePlugin uid name req.appVer req.appLan type) with
            | error e => rfl
            | ok answer => cases answer <;> rfl
  | online logic i name type rest =>
    have online : (versions i).onlinePlugin = published.onlinePlugin := sees
    simp only [callStep, readOnline, outcome, online]
    cases (faults i).at .online (DyeingLogic.handleOnlineHash city published.onlinePlugin uid
        name req.appVer req.appLan type) with
    | error e => rfl
    | ok answer => cases answer <;> rfl

variable (city faults uid req) in
theorem next_callStep (next : s.Next w o) (hle : w ≤ o + 1) :
    ∃ w' o', (s.callStep city faults uid req).Next w' o' ∧ w' ≤ o' + 1 ∧ w ≤ w' ∧ o ≤ o' ∧
      s.Passes w' o' := by
  rcases callStep_cases city faults uid req s with
    ⟨_, h⟩ | ⟨_, i, _, _, _, hpoint, -, h⟩ | ⟨_, i, _, _, _, _, hpoint, -, h⟩ |
      ⟨_, i, _, _, _, _, hpoint, h⟩
  · refine ⟨w + 1, o + 1, by simp [h, Next], by omega, by omega, by omega, ?_⟩
    unfold Next at next
    unfold Passes
    split at next <;> simp_all
  all_goals
    simp only [Next, hpoint] at next
    obtain ⟨rfl, rfl⟩ := next
  · exact ⟨o + 1, o + 1, by simp [h, Next], by omega, by omega, by omega, by simp [Passes, hpoint]⟩
  · exact ⟨o + 1, o, by simp [h, Next], by omega, by omega, by omega, by simp [Passes, hpoint]⟩
  · exact ⟨o + 1, o + 1, by simp [h, Next], by omega, by omega, by omega, by simp [Passes, hpoint]⟩

/-- A bound on the steps that the call has left. -/
def stepsLeft (s : System) : Nat :=
  match s.point with
  | .types _ _ types => 2 * types.length + 1
  | .online _ _ _ _ rest => 2 * rest.length + 2
  | .returned _ => 0

theorem stepsLeft_eq_zero {s : System} :
    s.stepsLeft = 0 ↔ ∃ result, s.point = .returned result := by
  unfold stepsLeft
  cases s.point <;> simp

variable (city faults uid req)

theorem stepsLeft_callStep (s : System) :
    (s.callStep city faults uid req).stepsLeft ≤ s.stepsLeft - 1 := by
  rcases callStep_cases city faults uid req s with
    ⟨_, h⟩ | ⟨_, i, _, _, _, hpoint, hlt, h⟩ | ⟨_, i, _, _, _, _, hpoint, hlt, h⟩ |
      ⟨_, i, _, _, _, _, hpoint, h⟩
  · simp [h, stepsLeft]
  all_goals
    simp only [h, stepsLeft, hpoint]
    omega

@[simp] theorem flushStep_stepsLeft (s : System) : s.flushStep.stepsLeft = s.stepsLeft := by
  unfold flushStep
  cases s.writes <;> rfl

theorem stepsLeft_run (s : System) (schedule : List Actor) :
    (s.run city faults uid req schedule).stepsLeft ≤ s.stepsLeft - schedule.count .call := by
  induction schedule generalizing s with
  | nil => exact le_rfl
  | cons actor schedule ih =>
    cases actor with
    | call =>
      have hstep := stepsLeft_callStep city faults uid req s
      have hrest := ih (s.callStep city faults uid req)
      rw [List.count_cons_self]
      change ((s.callStep city faults uid req).run city faults uid req schedule).stepsLeft ≤ _
      omega
    | flush =>
      have hrest := ih s.flushStep
      rw [flushStep_stepsLeft] at hrest
      rw [List.count_cons_of_ne (by decide)]
      exact hrest

end System

end Steps

end ABDyeing
