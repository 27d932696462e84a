import ABDyeing.FlushFreshUser
import ABDyeing.Server.Boot

/-! From the command line to a server that answers, or to the end of the process: with which
options, configurations and databases the server comes up. -/

namespace ABDyeing

open Lib

variable {world : World} {document : Document} {confPath : Bytes} {conf : Config}

section Init

variable {node : Bytes → Bytes} {env : FlushEnv}

theorem bindLogics_parsed (parsed : Config.parseFile world confPath = .ok conf) {suffix : Bytes}
    (hsuffix : conf.get (str "/main/base/[fresh_product_suffix]") [] = .ok suffix)
    (threads : List Nat) (before : Nat → Option DyeingLogic) :
    ∃ logics, bindLogics world confPath threads before = .ok logics := by
  induction threads generalizing before with
  | nil => exact ⟨before, rfl⟩
  | cons tid tids ih =>
    have first : DyeingLogic.init world confPath =
        .ok ⟨if suffix.isEmpty then str "fresh" else suffix⟩ := by
      simp only [DyeingLogic.init, parsed, hsuffix, bind, Except.bind]
      rfl
    rw [bindLogics, first]
    exact ih _

/-- The connection that the first load of the users makes is made, and no record lacks its uid. -/
def Reachable (node : Bytes → Bytes) (env : FlushEnv) (freshPrefix : Bytes) : Prop :=
  Harmless env.freshClient (storedDBConf node freshPrefix) (DyeingFreshUserPlugin.sql env.time)
    DyeingFreshUserPlugin.columns

theorem flushFreshUser_reaches (holds : env.store.Holds node) (freshPrefix : Bytes) (n : Nat) :
    let loaded := (DyeingFreshUserPlugin.new freshPrefix).flushFreshUser env.store env.freshClient
      env.time env.clock n
    (Reachable node env freshPrefix ∧ ∃ users, loaded = .ok users) ∨
      ¬Reachable node env freshPrefix ∧
        ∃ message, loaded = .error (.exception (.mysql message)) := by
  intro loaded
  have setsRow := DyeingFreshUserPlugin.setsRow env.clock
  by_cases reachable : Reachable node env freshPrefix
  · refine .inl ⟨reachable, ?_⟩
    rcases refresh_of_harmless setsRow holds reachable (.new freshPrefix) (.new freshPrefix) n with
      ⟨-, hfresh⟩ | ⟨records, -, hfresh⟩
    · exact ⟨_, hfresh⟩
    · exact ⟨_, hfresh⟩
  · exact .inr ⟨reachable, refresh_of_not_harmless setsRow holds reachable _ _ n⟩

/-- What `init` comes to for a configuration that is a document. -/
theorem init_document (named : confPath ≠ []) (file : world.files confPath = some document.text)
    (holds : env.store.Holds node) (dir : Directory) (threads : List Nat) :
    let booted := ABDyeingHandler.init world dir threads confPath env
    let reachable := Reachable node env (document.base (str "fresh_prefix"))
    (document.base (str "types") = [] → booted = .error .undefined) ∧
      (document.base (str "types") ≠ [] →
        (reachable → ∃ s, booted = .ok s) ∧
        (¬reachable → ∃ m, booted = .error (.uncaught (.exception (.mysql m))))) := by
  intro booted reachable
  obtain ⟨config, hparse, params⟩ := parseFile_document named file
  have base {sName key : Bytes}
      (path : parseDomainName sName true = .ok ⟨[str "main", str "base"], key⟩) :
      config.get sName [] = .ok (document.base key) := by
    rw [Config.get_of_path path, params]
    rfl
  have types := @base (str "/main/base/[types]") (str "types") rfl
  have whitePrefix := @base (str "/main/base/[white_prefix]") (str "white_prefix") rfl
  have onlinePrefix := @base (str "/main/base/[online_prefix]") (str "online_prefix") rfl
  have freshPrefix := @base (str "/main/base/[fresh_prefix]") (str "fresh_prefix") rfl
  have freshHour := @base (str "/main/base/[fresh_hour]") (str "fresh_hour") rfl
  have suffix := @base (str "/main/base/[fresh_product_suffix]") (str "fresh_product_suffix") rfl
  obtain ⟨logics, hlogics⟩ := bindLogics_parsed hparse suffix threads fun _ => none
  constructor
  · intro none
    have noTypes : initTypes config = .error .undefined := by
      simp only [initTypes, types, none, uncaught, bind, Except.bind, List.isEmpty_nil, if_true]
    simp only [booted, ABDyeingHandler.init, hlogics, hparse, noTypes, uncaught, bind, Except.bind]
  · intro some
    have nonempty : sepstr (document.base (str "types")) (str "|") true ≠ [] := by
      have split := sepstr_splitOn (document.base (str "types")) 124
      rw [List.splitOn] at split
      exact split ▸ List.splitOnP_ne_nil _ _
    have hinit : initTypes config = .ok (sepstr (document.base (str "types")) (str "|") true) := by
      simp only [initTypes, types, uncaught, bind, Except.bind, List.isEmpty_iff, some, nonempty,
        if_false]
      rfl
    generalize sepstr (document.base (str "types")) (str "|") true = types' at hinit
    obtain ⟨white, n, hwhite⟩ : ∃ white n, (DyeingWhiteListPlugin.new (document.base
        (str "white_prefix"))).loadConfig env.store types' 0 = .ok (white, n) :=
      ⟨_, _, DyeingWhiteListPlugin.loadConfig_before (fun i _ => holds i) _ _ le_rfl⟩
    obtain ⟨online, m, honline⟩ : ∃ online m, (DyeingOnlinePlugin.new (document.base
        (str "online_prefix"))).loadConfig env.store types' n = .ok (online, m) :=
      ⟨_, _, DyeingOnlinePlugin.loadConfig_before (fun i _ => holds i) _ _ le_rfl⟩
    have users := flushFreshUser_reaches holds (document.base (str "fresh_prefix")) m
    rcases users with ⟨harmless, users, hfresh⟩ | ⟨unreachable, message, hfresh⟩
    all_goals
      simp only [booted, ABDyeingHandler.init, hlogics, hparse, hinit, whitePrefix, hwhite,
        onlinePrefix, honline, freshPrefix, freshHour, hfresh, CurrentFresh.init, uncaught, bind,
        Except.bind]
    · exact ⟨fun _ => ⟨_, rfl⟩, fun refused => absurd harmless refused⟩
    · exact ⟨fun reached => absurd reached unreachable, fun _ => ⟨message, rfl⟩⟩

end Init

namespace Server

end Server

end ABDyeing
