import ABDyeing.Server.Rounds
import ABDyeing.Snapshot.System

/-! How a change of the configuration store comes into force.  Once the store stays as it is, one
round of the flush thread brings both plugins to what a flush makes of the store, and from then on
every call meets them so, however its reads fall between the steps of the threads.  A shared pointer
is taken to be copied and assigned at once; the code does neither under a lock. -/

namespace ABDyeing

open Lib

namespace ABDyeingHandler

variable {node : Bytes → Bytes} {store : Store}

/-- Another flush from a store that holds `node` would change nothing. -/
structure InForce (node : Bytes → Bytes) (handler : ABDyeingHandler) : Prop where
  whiteList : handler.whiteList = handler.nextWhiteList node
  onlinePlugin : handler.onlinePlugin = handler.nextOnlinePlugin node

theorem flushOnline_of_holds (holds : store.Holds node) (handler : ABDyeingHandler) (n : Nat) :
    handler.flushOnline store n = ({ handler with onlinePlugin := handler.nextOnlinePlugin node },
      .ok (n + 1 + (handler.onlineTypes node).length)) := by
  have hload := DyeingOnlinePlugin.loadConfig_before (fun i _ => holds i) handler.onlinePrefix
    handler.types (le_refl (n + 1 + (handler.onlineTypes node).length))
  have verdict := DyeingOnlinePlugin.loadNodes_fst node (handler.onlineTypes node) false
    (.new handler.onlinePrefix)
  rw [flushOnline, hload, publishIf_ok]
  refine Prod.ext ?_ rfl
  change (if (DyeingOnlinePlugin.loadNodes node (handler.onlineTypes node) false
    (.new handler.onlinePrefix)).1 = true then _ else _ : ABDyeingHandler) = _
  rw [verdict, DyeingOnlinePlugin.new_pathPrefix, nextOnlinePlugin]
  unfold onlineText
  split <;> rfl

theorem nextWhiteList_idem (handler : ABDyeingHandler) :
    ({ handler with whiteList := handler.nextWhiteList node } :
      ABDyeingHandler).nextWhiteList node = handler.nextWhiteList node := by
  change (if handler.whiteTypes node = [] then handler.nextWhiteList node
    else some (handler.loadedWhiteList node)) = _
  by_cases none : handler.whiteTypes node = []
  · rw [if_pos none]
  · rw [if_neg none, nextWhiteList, if_neg none]

theorem nextOnlinePlugin_idem (handler : ABDyeingHandler) :
    ({ handler with onlinePlugin := handler.nextOnlinePlugin node } :
      ABDyeingHandler).nextOnlinePlugin node = handler.nextOnlinePlugin node := by
  change (if ((handler.onlineTypes node).getLast?.map
      fun t => !(handler.onlineText node t).isEmpty).getD false = true then
    some (DyeingOnlinePlugin.loadNodes node (handler.onlineTypes node) false
      (.new handler.onlinePrefix)).2 else handler.nextOnlinePlugin node) = _
  unfold nextOnlinePlugin
  split <;> rfl

end ABDyeingHandler

namespace Server

variable {world : World} {node : Bytes → Bytes} {s t : Server}

/-- The stores that these steps of the flush thread find hold `node`. -/
def Steady (node : Bytes → Bytes) (steps : List ServerStep) : Prop :=
  ∀ store, .flush store ∈ steps → store.Holds node

/-- What one step of the flush thread makes of the handler. -/
theorem flushStep_of_holds {store : Store} (holds : store.Holds node) :
    s.flushStep store = .ok (match s.flushThread.point with
      | .whiteList => { s with
        handler := { s.handler with whiteList := s.handler.nextWhiteList node }
        flushThread := ⟨.onlinePlugin,
          s.flushThread.reads + 1 + (s.handler.whiteTypes node).length⟩ }
      | .onlinePlugin => { s with
        handler := { s.handler with onlinePlugin := s.handler.nextOnlinePlugin node }
        flushThread := ⟨.whiteList,
          s.flushThread.reads + 1 + (s.handler.onlineTypes node).length⟩ }) := by
  unfold flushStep
  cases s.flushThread.point with
  | whiteList =>
    simp only [ABDyeingHandler.flushWhiteList_of_holds holds]
    rfl
  | onlinePlugin =>
    simp only [ABDyeingHandler.flushOnline_of_holds holds]
    rfl

/-- A flush changes nothing of what is in force. -/
theorem handler_of_inForce {store : Store} (holds : store.Holds node)
    (inForce : s.handler.InForce node) (h : s.flushStep store = .ok t) :
    t.handler = s.handler := by
  rw [flushStep_of_holds holds, Except.ok.injEq] at h
  subst h
  cases s.flushThread.point with
  | whiteList => simp only [← inForce.whiteList]
  | onlinePlugin => simp only [← inForce.onlinePlugin]

/-- Two steps of the flush thread, whichever comes first, bring both plugins to what the store
holds. -/
theorem inForce_two_flushSteps {store store' : Store} (holds : store.Holds node)
    (holds' : store'.Holds node) {u : Server} (first : s.flushStep store = .ok t)
    (second : t.flushStep store' = .ok u) : u.handler.InForce node := by
  rw [flushStep_of_holds holds, Except.ok.injEq] at first
  rw [flushStep_of_holds holds', Except.ok.injEq] at second
  subst first second
  cases s.flushThread.point with
  | whiteList =>
    exact ⟨s.handler.nextWhiteList_idem.symm, (ABDyeingHandler.nextOnlinePlugin_idem _).symm⟩
  | onlinePlugin =>
    exact ⟨(ABDyeingHandler.nextWhiteList_idem _).symm, s.handler.nextOnlinePlugin_idem.symm⟩

/-- What a flush would publish is seen on the policies alone. -/
theorem next_congr (same : parts.get .policies t = parts.get .policies s) :
    t.handler.nextWhiteList node = s.handler.nextWhiteList node ∧
      t.handler.nextOnlinePlugin node = s.handler.nextOnlinePlugin node := by
  have types : t.handler.types = s.handler.types := congrArg PolicyPart.types same
  have whitePrefix : t.handler.whitePrefix = s.handler.whitePrefix :=
    congrArg PolicyPart.whitePrefix same
  have onlinePrefix : t.handler.onlinePrefix = s.handler.onlinePrefix :=
    congrArg PolicyPart.onlinePrefix same
  have whiteList : t.handler.whiteList = s.handler.whiteList := congrArg PolicyPart.whiteList same
  have onlinePlugin : t.handler.onlinePlugin = s.handler.onlinePlugin :=
    congrArg PolicyPart.onlinePlugin same
  have handler : t.handler = { s.handler with
      freshUser := t.handler.freshUser
      pushUser := t.handler.pushUser
      kq := t.handler.kq
      freshPrefix := t.handler.freshPrefix
      logics := t.handler.logics } := by
    simp only [← types, ← whitePrefix, ← onlinePrefix, ← whiteList, ← onlinePlugin]
  rw [handler]
  exact ⟨rfl, rfl⟩

/-- Whether `node` is in force is, too. -/
theorem inForce_congr (same : parts.get .policies t = parts.get .policies s) :
    t.handler.InForce node ↔ s.handler.InForce node := by
  obtain ⟨nextWhite, nextOnline⟩ := @next_congr node _ _ same
  have whiteList : t.handler.whiteList = s.handler.whiteList := congrArg PolicyPart.whiteList same
  have onlinePlugin : t.handler.onlinePlugin = s.handler.onlinePlugin :=
    congrArg PolicyPart.onlinePlugin same
  constructor
  · exact fun h => ⟨by rw [← whiteList, h.whiteList, nextWhite],
      by rw [← onlinePlugin, h.onlinePlugin, nextOnline]⟩
  · exact fun h => ⟨by rw [whiteList, h.whiteList, nextWhite],
      by rw [onlinePlugin, h.onlinePlugin, nextOnline]⟩

/-- However many steps the threads make, what a flush would publish stays the same, and with it what
is published from the store and what is kept from before. -/
theorem next_run {steps : List ServerStep} (steady : Steady node steps)
    (hrun : s.run world steps = .ok t) :
    t.handler.nextWhiteList node = s.handler.nextWhiteList node ∧
      t.handler.nextOnlinePlugin node = s.handler.nextOnlinePlugin node := by
  refine runSteps_invariant (I := fun u =>
    u.handler.nextWhiteList node = s.handler.nextWhiteList node ∧
      u.handler.nextOnlinePlugin node = s.handler.nextOnlinePlugin node)
    (fun u a ha next same hstep => ?_) ⟨rfl, rfl⟩ hrun
  by_cases mine : a.part = .policies
  · cases a with
    | flush store =>
      rw [step, flushStep_of_holds (steady store ha), Except.ok.injEq] at hstep
      subst hstep
      cases u.flushThread.point with
      | whiteList => exact ⟨u.handler.nextWhiteList_idem.trans same.1, same.2⟩
      | onlinePlugin => exact ⟨same.1, u.handler.nextOnlinePlugin_idem.trans same.2⟩
    | _ => cases mine
  · obtain ⟨white, online⟩ := @next_congr node _ _ ((drives world).get_of_ne hstep (Ne.symm mine))
    exact ⟨white.trans same.1, online.trans same.2⟩

/-- `node` is in force, and both plugins are as before. -/
structure Settled (node : Bytes → Bytes) (s t : Server) : Prop where
  inForce : t.handler.InForce node
  whiteList : t.handler.whiteList = s.handler.whiteList
  onlinePlugin : t.handler.onlinePlugin = s.handler.onlinePlugin

/-- What is in force stays in force, and both plugins stay as they are, whatever the threads do. -/
theorem settled_run {steps : List ServerStep} (steady : Steady node steps)
    (inForce : s.handler.InForce node) (hrun : s.run world steps = .ok t) : Settled node s t := by
  refine runSteps_invariant (fun u a ha next settled hstep => ?_) ⟨inForce, rfl, rfl⟩ hrun
  by_cases mine : a.part = .policies
  · cases a with
    | flush store =>
      have same := handler_of_inForce (steady store ha) settled.inForce hstep
      exact ⟨same ▸ settled.inForce, same ▸ settled.whiteList, same ▸ settled.onlinePlugin⟩
    | _ => cases mine
  · have same := (drives world).get_of_ne hstep (Ne.symm mine)
    exact ⟨(inForce_congr same).mpr settled.inForce,
      (congrArg PolicyPart.whiteList same).trans settled.whiteList,
      (congrArg PolicyPart.onlinePlugin same).trans settled.onlinePlugin⟩

/-- Two steps of the flush thread suffice, wherever they fall. -/
theorem inForce_of_round {steps : List ServerStep} (steady : Steady node steps)
    (round : 2 ≤ (stepsOf ServerStep.part .policies steps).length)
    (hrun : s.run world steps = .ok t) : t.handler.InForce node := by
  obtain ⟨t', hrun', same⟩ := (drives world).alone hrun .policies rfl
  rw [← inForce_congr same]
  have mine (a : ServerStep) (ha : a ∈ stepsOf ServerStep.part .policies steps) :
      ∃ store, a = .flush store ∧ store.Holds node := by
    obtain ⟨member, part⟩ := List.mem_filter.mp ha
    cases a with
    | flush store => exact ⟨store, rfl, steady store member⟩
    | _ => simp [ServerStep.part] at part
  rcases hsteps : stepsOf ServerStep.part .policies steps with _ | ⟨a, _ | ⟨b, rest⟩⟩
  · simp [hsteps] at round
  · simp [hsteps] at round
  · rw [hsteps] at mine hrun'
    obtain ⟨store, rfl, holds⟩ := mine a (by simp)
    obtain ⟨store', rfl, holds'⟩ := mine b (by simp)
    obtain ⟨u, first, hrun'⟩ := runSteps_cons.mp hrun'
    obtain ⟨v, second, hrun'⟩ := runSteps_cons.mp hrun'
    refine Settled.inForce (settled_run (fun other hother => ?_)
      (inForce_two_flushSteps holds holds' first second) hrun')
    obtain ⟨_, same, holds⟩ := mine (.flush other) (by simp [hother])
    rw [ServerStep.flush.inj same]
    exact holds

/-- What a call meets at each of its types are plugins that the server has published in some state
from `t` on: it copies each pointer at once, before or after any assignment. -/
structure Meets (world : World) (t : Server) (steps : List ServerStep)
    (versions : Nat → Published) : Prop where
  whiteList : ∀ i, ∃ done u, done <+: steps ∧ t.run world done = .ok u ∧
    (versions i).whiteList = u.handler.whiteList
  onlinePlugin : ∀ i, ∃ done u, done <+: steps ∧ t.run world done = .ok u ∧
    (versions i).onlinePlugin = u.handler.onlinePlugin

/-- The text of the type lists the user last with this configuration. -/
structure Listed (node : Bytes → Bytes) (handler : ABDyeingHandler) (uid type configId : Bytes) :
    Prop where
  loaded : type ∈ handler.whiteTypes node
  pair : lastValue (DyeingWhiteListPlugin.parsePairs (node (fullPath handler.whitePrefix type)))
    uid = some configId

theorem Listed.handleWhiteList {handler : ABDyeingHandler} {uid type configId : Bytes}
    (listed : Listed node handler uid type configId) :
    DyeingLogic.handleWhiteList (handler.nextWhiteList node) uid type = some configId := by
  rw [ABDyeingHandler.get_nextWhiteList (List.ne_nil_of_mem listed.loaded), if_pos listed.loaded,
    listed.pair]

section Calls

variable {city : CityHash} {faults : Nat → Faults} {uid : Bytes} {req : ABDyeingLanRequest}
  {versions : Nat → Published}

variable (city) (req) in
/-- A user who is listed for each type has each answered from the white list. -/
theorem typesWith_listed {conf : Bytes → Bytes} (quiet : ∀ i, faults i .whiteList = none)
    (logic : DyeingLogic) {types : List Bytes} (k : Nat) (reply : ABDyeingReply)
    (listed : ∀ type ∈ types, ∀ i,
      DyeingLogic.handleWhiteList (versions i).whiteList uid type = some (conf type)) :
    typesWith city faults uid req versions logic k types reply =
      ({ reply with
        isset := reply.isset || !types.isEmpty
        entries := reply.entries ++ types.map fun type => ⟨type, conf type⟩ }, .ok ()) := by
  induction types generalizing k reply with
  | nil => simp [typesWith]
  | cons type types ih =>
    obtain ⟨first, rest⟩ := List.forall_mem_cons.mp listed
    have answered : logic.onDyeing city (versions k) (faults k) uid req.app req.appVer req.appLan
        type reply = .ok (true, reply.pushBack type (conf type)) := by
      rw [DyeingLogic.onDyeing, Faults.at_of_none (quiet k), first]
      rfl
    rw [typesWith, answered]
    simp only
    rw [ih (k + 1) _ rest]
    simp [ABDyeingReply.pushBack]

/-- A call that starts when `node` is in force meets it at each of its types. -/
theorem versions_of_inForce {after : List ServerStep} (inForce : t.handler.InForce node)
    (steady : Steady node after) (meets : Meets world t after versions) (i : Nat) :
    (versions i).whiteList = t.handler.nextWhiteList node ∧
      (versions i).onlinePlugin = t.handler.nextOnlinePlugin node := by
  have settled {done : List ServerStep} {u : Server} (early : done <+: after)
      (hdone : t.run world done = .ok u) : Settled node t u :=
    settled_run (fun store h => steady store (early.subset h)) inForce hdone
  constructor
  · obtain ⟨done, u, early, hdone, hwhite⟩ := meets.whiteList i
    rw [hwhite, (settled early hdone).whiteList, ← inForce.whiteList]
  · obtain ⟨done, u, early, hdone, honline⟩ := meets.onlinePlugin i
    rw [honline, (settled early hdone).onlinePlugin, ← inForce.onlinePlugin]

/-- A user who is listed for every type of the request has each answered so. -/
theorem replyWith_listed {conf : Bytes → Bytes} {handler : ABDyeingHandler} {thread : Nat}
    {logic : DyeingLogic} (worker : handler.getLogic thread = some logic)
    (quiet : ∀ i, faults i .whiteList = none) (asked : req.types ≠ [])
    (white : ∀ i, (versions i).whiteList = handler.nextWhiteList node)
    (listed : ∀ type ∈ req.types, Listed node handler uid type (conf type)) :
    replyWith city faults uid req versions handler thread .new =
      .ok ⟨.rcStatusOk, true, req.types.map fun type => ⟨type, conf type⟩⟩ := by
  have answers := typesWith_listed city req quiet logic 0 .new
    fun type htype i => by rw [white i]; exact (listed type htype).handleWhiteList
  rw [replyWith, worker]
  simp only [List.isEmpty_iff, asked, if_false, answers, closing]
  simp [asked, ABDyeingReply.new]

/-- Once the store has stayed as it is for a round of the flush thread, a call meets one version of
both plugins at all its types: those that a flush makes of the store, or, where a flush publishes
none of it, those that were published before.  A user who is listed in the store for every type of
the request has each answered so, in every order of the steps, whatever the other sources hold. -/
theorem calls_in_force {before after : List ServerStep} (steady : Steady node (before ++ after))
    (round : 2 ≤ (stepsOf ServerStep.part .policies before).length)
    (hrun : s.run world before = .ok t) (meets : Meets world t after versions) (thread : Nat) :
    (∀ i, (versions i).whiteList = s.handler.nextWhiteList node ∧
      (versions i).onlinePlugin = s.handler.nextOnlinePlugin node) ∧
    (∀ reply, replyWith city faults uid req versions t.handler thread reply =
      replyWith city faults uid req (fun i => { versions i with
        whiteList := s.handler.nextWhiteList node
        onlinePlugin := s.handler.nextOnlinePlugin node }) t.handler thread reply) ∧
    ∀ logic, t.handler.getLogic thread = some logic → (∀ i, faults i .whiteList = none) →
      req.types ≠ [] → ∀ conf : Bytes → Bytes,
        (∀ type ∈ req.types, Listed node t.handler uid type (conf type)) →
        replyWith city faults uid req versions t.handler thread .new =
          .ok ⟨.rcStatusOk, true, req.types.map fun type => ⟨type, conf type⟩⟩ := by
  have early : Steady node before := fun store h => steady store (List.mem_append_left _ h)
  have inForce := inForce_of_round early round hrun
  have met := versions_of_inForce inForce (fun store h => steady store (List.mem_append_right _ h))
    meets
  obtain ⟨sameWhite, sameOnline⟩ := next_run early hrun
  have first (i : Nat) : (versions i).whiteList = s.handler.nextWhiteList node ∧
      (versions i).onlinePlugin = s.handler.nextOnlinePlugin node :=
    ⟨(met i).1.trans sameWhite, (met i).2.trans sameOnline⟩
  refine ⟨first, fun reply => ?_, fun logic worker quiet asked conf listed => ?_⟩
  · have same : versions = fun i => { versions i with
        whiteList := s.handler.nextWhiteList node
        onlinePlugin := s.handler.nextOnlinePlugin node } := by
      funext i
      rw [← (first i).1, ← (first i).2]
    rw [← same]
  · exact replyWith_listed worker quiet asked (fun i => (met i).1) listed

end Calls

def listNode (path : Bytes) : Bytes := if path = str "/w/t/value" then str "u=7" else []

theorem calls_in_force_example :
    let steps : List ServerStep := [.flush (steady listNode), .flush (steady listNode)]
    ∃ t, (blank [str "t"]).run World.blank steps = .ok t ∧
      replyWith (fun _ _ => 0) (fun _ _ => none) (str "u") ⟨str "emui", [], [], [str "t"]⟩
          (fun _ => t.handler.toPublished) t.handler 0 .new =
        .ok ⟨.rcStatusOk, true, [⟨str "t", str "7"⟩]⟩ := by
  intro steps
  obtain ⟨t, hrun⟩ : ∃ t, (blank [str "t"]).run World.blank steps = .ok t := ⟨_, rfl⟩
  have build := run_sameBuild hrun
  have steady : Steady listNode (steps ++ []) := by
    intro other h
    simp only [steps, List.append_nil, List.mem_cons, List.not_mem_nil, or_false, or_self] at h
    rw [ServerStep.flush.inj h]
    exact steady_holds listNode
  have meets : Meets World.blank t [] fun _ => t.handler.toPublished :=
    ⟨fun _ => ⟨[], t, List.nil_prefix, rfl, rfl⟩, fun _ => ⟨[], t, List.nil_prefix, rfl, rfl⟩⟩
  have worker : t.handler.getLogic 0 = some ⟨str "fresh"⟩ := by
    rw [ABDyeingHandler.getLogic, build.logics]
    rfl
  refine ⟨t, hrun, ?_⟩
  refine (calls_in_force steady (by decide) hrun meets 0).2.2 _ worker (fun _ => rfl) (by simp)
    (fun _ => str "7") fun type htype => ?_
  rw [List.mem_singleton.mp htype]
  refine ⟨?_, ?_⟩
  · rw [ABDyeingHandler.whiteTypes, build.types, build.whitePrefix]
    decide
  · rw [build.whitePrefix]
    decide

end Server

end ABDyeing
