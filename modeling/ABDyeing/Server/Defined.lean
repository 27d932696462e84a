import ABDyeing.Online.Segments
import ABDyeing.Server.Boot

/-! No call reads past the end of a policy.  Where every policy text that the store gives is
complete, every plugin that the server ever publishes has segments in all its policies, also the one
that the start publishes where the verdict of its load is false, and so every request has a reply.
A shared pointer is taken to be copied and assigned at once, as it is for `Meets`. -/

namespace ABDyeing

open Lib

/-- Whatever the store gives as the text of a type is complete. -/
def Store.Complete (store : Store) (pathPrefix : Bytes) : Prop :=
  ∀ n type text, store n (fullPath pathPrefix type) = .ok text → ABDyeing.Complete text

theorem complete_nil : Complete [] := complete_iff.mpr fun productId policy h => by
  rw [parseEntries_empty] at h
  cases h

theorem Store.Complete.qconfGet {store : Store} {pathPrefix : Bytes}
    (complete : store.Complete pathPrefix) {type text : Bytes} {n m : Nat}
    (h : ABDyeing.qconfGet store (fullPath pathPrefix type) [] n = .ok (text, m)) :
    ABDyeing.Complete text := by
  unfold ABDyeing.qconfGet at h
  split at h
  · rename_i value hvalue
    rw [← (Prod.mk.inj (Except.ok.inj h)).1]
    exact complete n type value hvalue
  · rw [← (Prod.mk.inj (Except.ok.inj h)).1]
    exact complete_nil
  · rw [← (Prod.mk.inj (Except.ok.inj h)).1]
    exact complete_nil
  · cases h

/-- Whatever its verdict, a load of complete texts leaves every policy with segments. -/
theorem DyeingOnlinePlugin.loadConfig_segmented {store : Store} {pathPrefix : Bytes}
    {types : List Bytes} {n m : Nat} {r : Bool × DyeingOnlinePlugin}
    (complete : store.Complete pathPrefix)
    (h : (new pathPrefix).loadConfig store types n = .ok (r, m)) : r.2.Segmented := by
  have keep (plugin : DyeingOnlinePlugin) (t : Bytes) (n : Nat) (r : Bool × DyeingOnlinePlugin)
      (m : Nat) (kept : plugin.pathPrefix = pathPrefix ∧ plugin.Segmented)
      (h : loadInternal store plugin t n = .ok (r, m)) :
      r.2.pathPrefix = pathPrefix ∧ r.2.Segmented := by
    obtain ⟨⟨text, n'⟩, hget, h⟩ := bind_eq_ok.mp h
    rw [kept.1] at hget
    obtain ⟨rfl, -⟩ := Prod.mk.inj (Except.ok.inj h)
    exact ⟨(loadText_pathPrefix plugin t text).trans kept.1,
      (segmented_loadText_iff kept.2 t text).mpr (complete.qconfGet hget)⟩
  exact (loadConfigWith_invariant keep ⟨rfl, new_segmented pathPrefix⟩ h).2

/-- A plugin, if there is one, has segments in all its policies. -/
def Published.Segmented (published : Published) : Prop :=
  ∀ plugin, published.onlinePlugin = some plugin → plugin.Segmented

section Replies

variable {city : CityHash} {faults : Nat → Faults} {uid : Bytes} {req : ABDyeingLanRequest}
  {versions : Nat → Published} {published : Published}

theorem Faults.at_defined {α : Type} (faults : Faults) (lookup : Lookup) {a : Outcome Exception α}
    (defined : a ≠ .error .undefined) : faults.at lookup a ≠ .error .undefined := by
  unfold Faults.at
  split
  · simp
  · exact defined

theorem DyeingLogic.dyeingApp_defined (logic : DyeingLogic) (faults : Faults)
    (app type : Bytes) : logic.dyeingApp published faults uid app type ≠ .error .undefined := by
  have fresh : faults.at .freshUser (.ok (handleFreshUser published.freshUser published.kq uid)) ≠
      .error .undefined := faults.at_defined _ (by simp)
  unfold dyeingApp
  split
  · refine bind_defined (faults.at_defined _ (by simp)) fun userType => ?_
    cases userType with
    | none => exact bind_defined fresh fun _ => by simp [pure, Except.pure]
    | some userType => simp [pure, Except.pure]
  · exact bind_defined fresh fun _ => by simp [pure, Except.pure]

variable (city) (uid) in
theorem DyeingLogic.handleOnlineHash_defined (segmented : published.Segmented)
    (app appVer appLan type : Bytes) :
    handleOnlineHash city published.onlinePlugin uid app appVer appLan type ≠
      .error .undefined := by
  unfold handleOnlineHash
  split
  · simp
  · rename_i plugin hplugin
    exact DyeingOnlinePlugin.defined_iff_segmented.mpr (segmented plugin hplugin) city uid app
      appVer appLan type

variable (city) (uid) in
theorem DyeingLogic.onDyeing_defined (segmented : published.Segmented) (logic : DyeingLogic)
    (faults : Faults) (app appVer appLan type : Bytes) (reply : ABDyeingReply) :
    logic.onDyeing city published faults uid app appVer appLan type reply ≠ .error .undefined := by
  unfold onDyeing
  refine bind_defined (faults.at_defined _ (by simp)) fun white => ?_
  cases white with
  | some configId => simp [pure, Except.pure]
  | none =>
    refine bind_defined (logic.dyeingApp_defined faults app type) fun dyeingApp => ?_
    have online := handleOnlineHash_defined city uid segmented dyeingApp appVer appLan type
    refine bind_defined (faults.at_defined _ online) fun answer => ?_
    cases answer <;> simp [pure, Except.pure]

variable (city) (faults) (uid) (req) in
theorem typesWith_defined (segmented : ∀ i, (versions i).Segmented) (logic : DyeingLogic)
    (types : List Bytes) (i : Nat) (reply : ABDyeingReply) :
    (typesWith city faults uid req versions logic i types reply).2 ≠ .error .undefined := by
  induction types generalizing i reply with
  | nil => simp [typesWith]
  | cons type types ih =>
    have first := DyeingLogic.onDyeing_defined city uid (segmented i) logic (faults i) req.app
      req.appVer req.appLan type reply
    rw [typesWith]
    split
    · rename_i e he
      rw [he] at first
      exact fun undefined => first (congrArg _ (Except.error.inj undefined))
    · exact ih _ _

/-- Every call over such plugins has a reply. -/
theorem replyWith_defined (segmented : ∀ i, (versions i).Segmented) (handler : ABDyeingHandler)
    (thread : Nat) (reply : ABDyeingReply) :
    ∃ reply', replyWith city faults uid req versions handler thread reply = .ok reply' := by
  unfold replyWith
  split
  · exact ⟨_, rfl⟩
  · rename_i logic _
    split
    · exact ⟨_, rfl⟩
    · have defined := typesWith_defined city faults uid req segmented logic req.types 0 reply
      rcases htypes : typesWith city faults uid req versions logic 0 req.types reply with
        ⟨reply', (e | _) | _⟩
      · exact ⟨_, rfl⟩
      · exact absurd (congrArg Prod.snd htypes) defined
      · simp only [closing]
        split
        · exact ⟨_, rfl⟩
        · exact ⟨_, rfl⟩

end Replies

namespace Server

variable {world : World} {s t u : Server}

/-- A step publishes no online plugin but one that it has loaded. -/
theorem step_onlinePlugin {a : ServerStep} (hstep : s.step world a = .ok u) :
    u.handler.onlinePlugin = s.handler.onlinePlugin ∨
      ∃ store plugin n m, a = .flush store ∧
        (DyeingOnlinePlugin.new s.handler.onlinePrefix).loadConfig store s.handler.types n =
          .ok ((true, plugin), m) ∧ u.handler.onlinePlugin = some plugin := by
  by_cases mine : a.part = .policies
  · cases a with
    | flush store =>
      rw [step, flushStep] at hstep
      split at hstep
      · left
        simp only [ABDyeingHandler.flushWhiteList] at hstep
        rcases hload : (DyeingWhiteListPlugin.new s.handler.whitePrefix).loadConfig store
          s.handler.types s.flushThread.reads with (e | _) | ⟨⟨_ | _, version⟩, n⟩
        all_goals rw [hload] at hstep
        · cases hstep
        · cases hstep
        · rw [← Except.ok.inj hstep]
        · rw [← Except.ok.inj hstep]
      · simp only [ABDyeingHandler.flushOnline] at hstep
        rcases hload : (DyeingOnlinePlugin.new s.handler.onlinePrefix).loadConfig store
          s.handler.types s.flushThread.reads with (e | _) | ⟨⟨_ | _, plugin⟩, n⟩
        all_goals rw [hload] at hstep
        · cases hstep
        · cases hstep
        · left
          rw [← Except.ok.inj hstep]
        · right
          rw [← Except.ok.inj hstep]
          exact ⟨store, plugin, _, n, rfl, hload, rfl⟩
    | _ => cases mine
  · exact .inl (congrArg PolicyPart.onlinePlugin ((drives world).get_of_ne hstep (Ne.symm mine)))

/-- The stores that these steps of the flush thread find give complete texts. -/
def CompleteTexts (pathPrefix : Bytes) (steps : List ServerStep) : Prop :=
  ∀ store, .flush store ∈ steps → store.Complete pathPrefix

/-- Whatever the other threads do, an online plugin with a policy that has no segment is never
published. -/
theorem run_segmented {steps : List ServerStep}
    (complete : CompleteTexts s.handler.onlinePrefix steps) (segmented : s.handler.Segmented)
    (hrun : s.run world steps = .ok t) : t.handler.Segmented := by
  refine (runSteps_invariant
    (I := fun u => SameBuild s.handler u.handler ∧ u.handler.Segmented)
    (fun u a ha next kept hstep => ?_) ⟨⟨rfl, rfl, rfl, rfl, rfl⟩, segmented⟩ hrun).2
  refine ⟨kept.1.trans (step_writes hstep).sameBuild, ?_⟩
  rcases step_onlinePlugin hstep with same | ⟨store, loaded, n, m, rfl, hload, published⟩
  · intro plugin hplugin
    exact kept.2 plugin (same.symm.trans hplugin)
  · intro plugin hplugin
    obtain rfl := Option.some.inj (hplugin.symm.trans published)
    rw [kept.1.onlinePrefix] at hload
    exact DyeingOnlinePlugin.loadConfig_segmented (complete store ha) hload

/-- Where every policy text of the store is complete, at the start and at each flush, no call reads
past the segments of a policy: each thread answers each request, in every order of the steps, also
while the plugin is still published that the start has loaded with a false verdict. -/
theorem calls_defined {dir : Directory} {threads : List Nat} {confPath : Bytes} {env : FlushEnv}
    {before after : List ServerStep} {city : CityHash} {faults : Nat → Faults} {uid : Bytes}
    {req : ABDyeingLanRequest} {versions : Nat → Published}
    (boot : ABDyeingHandler.init world dir threads confPath env = .ok s)
    (first : env.store.Complete s.handler.onlinePrefix)
    (later : CompleteTexts s.handler.onlinePrefix (before ++ after))
    (hrun : s.run world before = .ok t) (meets : Meets world t after versions)
    (thread : Nat) (reply : ABDyeingReply) :
    ∃ reply', replyWith city faults uid req versions t.handler thread reply = .ok reply' := by
  obtain ⟨conf, booted⟩ := init_ok boot
  obtain ⟨verdict, loaded, n, m, online, hload⟩ := booted.onlinePlugin
  have start : s.handler.Segmented := by
    intro plugin hplugin
    obtain rfl := Option.some.inj (hplugin.symm.trans online)
    exact DyeingOnlinePlugin.loadConfig_segmented first hload
  have settled : t.handler.Segmented :=
    run_segmented (fun store h => later store (List.mem_append_left _ h)) start hrun
  refine replyWith_defined (fun i => ?_) t.handler thread reply
  obtain ⟨done, u, early, hdone, hversion⟩ := meets.onlinePlugin i
  have complete : CompleteTexts t.handler.onlinePrefix done := by
    rw [(run_sameBuild hrun).onlinePrefix]
    exact fun store h => later store (List.mem_append_right _ (early.subset h))
  intro plugin hplugin
  exact run_segmented complete settled hdone plugin (hversion.symm.trans hplugin)

/-- Every text sends all buckets of one product to configuration 62. -/
def policyStore : Store := steady fun _ => str "emui|:0:62,1,1000"

theorem policyStore_complete (pathPrefix : Bytes) : policyStore.Complete pathPrefix := by
  intro n type text h
  obtain rfl := QConfRet.ok.inj h
  refine complete_iff.mpr fun productId policy hlast => ?_
  have entries : parseEntries (str "emui|:0:62,1,1000") =
      [(str "emui", ⟨0, [], [⟨str "62", 1, 1000⟩]⟩)] := by
    decide
  have hmem := mem_of_lastValue hlast
  rw [entries, List.mem_singleton] at hmem
  rw [(Prod.mk.inj hmem).2]
  simp

theorem calls_defined_example :
    ∃ s t reply, ABDyeingHandler.init bootWorld ∅ [0] (str "a")
        { bootEnv with store := policyStore } = .ok s ∧
      s.run bootWorld [.flush policyStore] = .ok t ∧
      replyWith (fun _ _ => 0) (fun _ _ => none) (str "u") ⟨str "emui", [], [], [str "t"]⟩
        (fun _ => t.handler.toPublished) t.handler 0 .new = .ok reply := by
  obtain ⟨s, boot⟩ : ∃ s, ABDyeingHandler.init bootWorld ∅ [0] (str "a")
      { bootEnv with store := policyStore } = .ok s := ⟨_, rfl⟩
  obtain ⟨t, hrun⟩ : ∃ t, s.run bootWorld [.flush policyStore] = .ok t :=
    ⟨_, (runSteps_singleton _ _).trans (flushStep_of_holds (steady_holds _))⟩
  have later : CompleteTexts s.handler.onlinePrefix ([.flush policyStore] ++ []) := by
    intro store h
    rw [List.append_nil, List.mem_singleton] at h
    rw [ServerStep.flush.inj h]
    exact policyStore_complete _
  have meets : Meets bootWorld t [] fun _ => t.handler.toPublished :=
    ⟨fun _ => ⟨[], t, List.nil_prefix, rfl, rfl⟩, fun _ => ⟨[], t, List.nil_prefix, rfl, rfl⟩⟩
  obtain ⟨reply, hreply⟩ := calls_defined boot (policyStore_complete _) later hrun meets 0 .new
  exact ⟨s, t, reply, boot, hrun, hreply⟩

end Server

end ABDyeing
