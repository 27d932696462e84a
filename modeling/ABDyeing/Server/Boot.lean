import ABDyeing.Config.Print
import ABDyeing.Server.InForce

/-! How the server comes up: `INVApplication::start` with the options of the command line and of the
configuration, and `ABDyeingHandler::init`, which loads every plugin once and publishes it whether
the load succeeds or not. -/

namespace ABDyeing

open Lib

/-- `INV_Argv`. -/
structure Argv where
  mParam : UnorderedMap Bytes Bytes
  vSingle : List Bytes

namespace Argv

def new : Argv := ⟨∅, []⟩

def parse (s : Bytes) (ag : Argv) : Argv :=
  match findFirstOf s (str "=") 0 with
  | some pos =>
    { ag with mParam := ag.mParam.insert (substr s 2 (pos - 2)) (s.drop (pos + 1)) }
  | none => { ag with mParam := ag.mParam.insert (s.drop 2) [] }

/-- The loop of `decode` over the arguments. -/
def decodeArgs : List Bytes → Argv → Argv
  | [], ag => ag
  | arg :: args, ag =>
    if 2 < arg.length ∧ substr arg 0 2 = str "--" then decodeArgs args (ag.parse arg)
    else decodeArgs args { ag with vSingle := ag.vSingle ++ [arg] }

/-- `decode`; the first of the arguments is the name of the program. -/
def decode (argv : List Bytes) (ag : Argv) : Argv :=
  decodeArgs argv.tail { ag with mParam := ∅ }

def getValue (ag : Argv) (sName : Bytes) : Bytes := (ag.mParam.lookup sName).getD []

end Argv

/-- What `start` has read when it makes the thread manager. -/
structure Options where
  confpath : Bytes
  port : Int32
  threadnum : Int32
  loglevel : Bytes
  deriving DecidableEq

/-- An option of the configuration, or else of the command line; without either, `usage` exits. -/
def readOption (config : Config) (ag : Argv) (sName argName : Bytes) : Except ProcessEnd Bytes := do
  let value ← uncaught .config (config.get sName [])
  if value.isEmpty then
    if (ag.getValue argName).isEmpty then .error (.exit 0) else return ag.getValue argName
  else return value

/-- `INVApplication::start` up to the thread manager. -/
def readOptions (world : World) (argv : List Bytes) : Except ProcessEnd Options := do
  let ag := Argv.new.decode argv
  let confpath := ag.getValue (str "config")
  if confpath.isEmpty then .error (.exit 0)
  else do
    let config ← uncaught .config (Config.parseFile world confpath)
    let strPort ← readOption config ag (str "/main/[port]") (str "port")
    let strThreadNum ← readOption config ag (str "/main/[threadnum]") (str "threadnum")
    let strLoglevel ← uncaught .config (config.get (str "/main/[loglevel]") [])
    return {
      confpath := confpath
      port := atoi strPort
      threadnum := atoi strThreadNum
      loglevel := if strLoglevel.isEmpty then str "DEBUG" else strLoglevel }

/-- `DyeingLogic::init` -/
def DyeingLogic.init (world : World) (confPath : Bytes) : Outcome ConfigException DyeingLogic := do
  let conf ← Config.parseFile world confPath
  let suffix ← conf.get (str "/main/base/[fresh_product_suffix]") []
  return ⟨if suffix.isEmpty then str "fresh" else suffix⟩

/-- The loop of `ABDyeingHandler::init` over the threads that answer requests. -/
def bindLogics (world : World) (confPath : Bytes) :
    List Nat → (Nat → Option DyeingLogic) → Outcome ConfigException (Nat → Option DyeingLogic)
  | [], logics => .ok logics
  | tid :: tids, logics => do
    let logic ← DyeingLogic.init world confPath
    bindLogics world confPath tids (Function.update logics tid (some logic))

/-- The types of the configuration; both assertions fail for none. -/
def initTypes (conf : Config) : Except ProcessEnd (List Bytes) := do
  let configTypes ← uncaught .config (conf.get (str "/main/base/[types]") [])
  if configTypes.isEmpty then .error .undefined
  else
    let types := sepstr configTypes (str "|") true
    if types.isEmpty then .error .undefined else return types

/-- What `DyeingCurrentFresh::init` starts: the Kafka thread, and the cleaner with its hour. -/
def CurrentFresh.init (world : World) (dir : Directory) (confPath : Bytes) :
    Outcome ConfigException (KafkaThreadState × ClearThreadState) := do
  let conf ← Config.parseFile world confPath
  let freshHour ← conf.get (str "/main/base/[fresh_hour]") []
  let freshHour := if freshHour.isEmpty then str "0" else freshHour
  return (⟨confPath, ⟨dir, 0⟩, .start⟩, ⟨freshHour, true, .test⟩)

/-- `ABDyeingHandler::init`, in the directory `dir`. -/
def ABDyeingHandler.init (world : World) (dir : Directory) (threads : List Nat) (confPath : Bytes)
    (env : FlushEnv) : Except ProcessEnd Server := do
  let logics ← uncaught .config (bindLogics world confPath threads fun _ => none)
  let conf ← uncaught .config (Config.parseFile world confPath)
  let types ← initTypes conf
  let whitePrefix ← uncaught .config (conf.get (str "/main/base/[white_prefix]") [])
  let ((_, whiteList), n) ← uncaught .exception
    ((DyeingWhiteListPlugin.new whitePrefix).loadConfig env.store types 0)
  let onlinePrefix ← uncaught .config (conf.get (str "/main/base/[online_prefix]") [])
  let ((_, onlinePlugin), n) ← uncaught .exception
    ((DyeingOnlinePlugin.new onlinePrefix).loadConfig env.store types n)
  let freshPrefix ← uncaught .config (conf.get (str "/main/base/[fresh_prefix]") [])
  let freshHour ← uncaught .config (conf.get (str "/main/base/[fresh_hour]") [])
  let ((_, freshUser), _) ← uncaught .exception
    ((DyeingFreshUserPlugin.new freshPrefix).flushFreshUser env.store env.freshClient env.time
      env.clock n)
  let (kafkaThread, clearThread) ← uncaught .config (CurrentFresh.init world dir confPath)
  return {
    handler := {
      whiteList := some whiteList
      onlinePlugin := some onlinePlugin
      freshUser := some freshUser
      pushUser := some (.new freshPrefix)
      kq := ∅
      types := types
      whitePrefix := whitePrefix
      onlinePrefix := onlinePrefix
      freshPrefix := freshPrefix
      logics := logics }
    timeKmsg := ∅
    flushThread := ⟨.whiteList, 0⟩
    freshThread := ⟨freshHour, true, false, .init, 0⟩
    kafkaThread := kafkaThread
    clearThread := clearThread }

/-- `INVApplication::start` up to `serve`; `workers` are the threads that the thread manager has
started for a number of threads. -/
def Server.boot (world : World) (dir : Directory) (workers : Int32 → List Nat) (argv : List Bytes)
    (env : FlushEnv) : Except ProcessEnd (Options × Server) := do
  let options ← readOptions world argv
  let server ← ABDyeingHandler.init world dir (workers options.threadnum) options.confpath env
  return (options, server)

/-- `--name=value` -/
def written (option : Bytes × Bytes) : Bytes := str "--" ++ option.1 ++ str "=" ++ option.2

theorem findFirstOf_written {name : Bytes} (clean : 61 ∉ name) (value : Bytes) :
    findFirstOf (written (name, value)) (str "=") 0 = some (2 + name.length) := by
  have before : (str "--" ++ name).findIdx? ((str "=").contains ·) = none := by
    rw [List.findIdx?_eq_none_iff]
    intro c hc
    have sign : str "=" = [61] := rfl
    have other : c ≠ 61 := by
      rintro rfl
      exact (List.mem_append.mp hc).elim (by decide) clean
    simpa [sign] using other
  have sign : (str "=" ++ value).findIdx? ((str "=").contains ·) = some 0 := rfl
  rw [findFirstOf, List.drop_zero, written, List.append_assoc, List.findIdx?_append, before, sign]
  simp only [Option.none_or, Option.map_some, List.length_append]
  exact congrArg some (by simp [str])

theorem Argv.parse_written {name : Bytes} (clean : 61 ∉ name) (value : Bytes) (ag : Argv) :
    ag.parse (written (name, value)) = { ag with mParam := ag.mParam.insert name value } := by
  have key : substr (written (name, value)) 2 (2 + name.length - 2) = name := by
    rw [Nat.add_sub_cancel_left]
    simp [substr, written, str]
  have rest : (written (name, value)).drop (2 + name.length + 1) = value := by
    simp [written, str, Nat.add_comm 2, List.drop_append]
  simp only [parse, findFirstOf_written clean, key, rest]

theorem Argv.decodeArgs_written {options : List (Bytes × Bytes)}
    (clean : ∀ option ∈ options, 61 ∉ option.1) (ag : Argv) :
    decodeArgs (options.map written) ag =
      { ag with mParam := assignAll options ag.mParam } := by
  induction options generalizing ag with
  | nil => rfl
  | cons option options ih =>
    obtain ⟨first, rest⟩ := List.forall_mem_cons.mp clean
    have long : 2 < (written option).length ∧ substr (written option) 0 2 = str "--" := by
      constructor
      · have dashes : (str "--").length = 2 := rfl
        have sign : (str "=").length = 1 := rfl
        simp only [written, List.length_append]
        omega
      · simp [written, substr, str]
    rw [List.map_cons, decodeArgs, if_pos long, parse_written first, ih rest, assignAll_cons]

section Init

variable {world : World} {dir : Directory} {threads : List Nat} {confPath : Bytes} {env : FlushEnv}
  {s : Server}

theorem bindLogics_ok {before logics : Nat → Option DyeingLogic}
    (h : bindLogics world confPath threads before = .ok logics) (thread : Nat) :
    (thread ∈ threads → ∃ logic, DyeingLogic.init world confPath = .ok logic ∧
      logics thread = some logic) ∧ (thread ∉ threads → logics thread = before thread) := by
  induction threads generalizing before with
  | nil =>
    obtain rfl : before = logics := Except.ok.inj h
    simp
  | cons tid tids ih =>
    obtain ⟨logic, hlogic, h⟩ := bind_eq_ok.mp h
    obtain ⟨bound, kept⟩ := ih h
    by_cases later : thread ∈ tids
    · exact ⟨fun _ => bound later, fun none => absurd (List.mem_cons_of_mem _ later) none⟩
    · by_cases same : thread = tid
      · subst same
        refine ⟨fun _ => ⟨logic, hlogic, (kept later).trans ?_⟩, fun none => ?_⟩
        · exact Function.update_self ..
        · exact absurd List.mem_cons_self none
      · refine ⟨fun hmem => ?_, fun _ => (kept later).trans ?_⟩
        · exact absurd hmem (by simp [same, later])
        · exact Function.update_of_ne same ..

theorem initTypes_ok {conf : Config} {types : List Bytes} (h : initTypes conf = .ok types) :
    ∃ text, conf.get (str "/main/base/[types]") [] = .ok text ∧ types = sepstr text (str "|") true ∧
      types ≠ [] := by
  obtain ⟨text, htext, h⟩ := except_bind_eq_ok.mp h
  simp only at h
  split at h
  · cases h
  · split at h
    · cases h
    · rename_i nonempty
      rw [← Except.ok.inj h]
      exact ⟨text, uncaught_eq_ok.mp htext, rfl, by simpa using nonempty⟩

/-- What a server holds once its handler is initialized. -/
structure Booted (world : World) (dir : Directory) (threads : List Nat) (confPath : Bytes)
    (env : FlushEnv) (conf : Config) (s : Server) : Prop where
  parsed : Config.parseFile world confPath = .ok conf
  logics : ∀ thread ∈ threads, ∃ logic, DyeingLogic.init world confPath = .ok logic ∧
    s.handler.getLogic thread = some logic
  others : ∀ thread ∉ threads, s.handler.getLogic thread = none
  types : ∃ text, conf.get (str "/main/base/[types]") [] = .ok text ∧
    s.handler.types = sepstr text (str "|") true ∧ s.handler.types ≠ []
  whitePrefix : conf.get (str "/main/base/[white_prefix]") [] = .ok s.handler.whitePrefix
  onlinePrefix : conf.get (str "/main/base/[online_prefix]") [] = .ok s.handler.onlinePrefix
  freshPrefix : conf.get (str "/main/base/[fresh_prefix]") [] = .ok s.handler.freshPrefix
  whiteList : ∃ verdict plugin n, s.handler.whiteList = some plugin ∧
    (DyeingWhiteListPlugin.new s.handler.whitePrefix).loadConfig env.store s.handler.types 0 =
      .ok ((verdict, plugin), n)
  onlinePlugin : ∃ verdict plugin n m, s.handler.onlinePlugin = some plugin ∧
    (DyeingOnlinePlugin.new s.handler.onlinePrefix).loadConfig env.store s.handler.types n =
      .ok ((verdict, plugin), m)
  freshUser : s.handler.freshUser.isSome
  pushUser : s.handler.pushUser = some (.new s.handler.freshPrefix)
  fresh : s.currentFresh = .empty
  flushThread : s.flushThread = ⟨.whiteList, 0⟩
  freshThread : ∃ freshHour, conf.get (str "/main/base/[fresh_hour]") [] = .ok freshHour ∧
    s.freshThread = ⟨freshHour, true, false, .init, 0⟩ ∧
    s.clearThread = ⟨if freshHour.isEmpty then str "0" else freshHour, true, .test⟩
  kafkaThread : s.kafkaThread = ⟨confPath, ⟨dir, 0⟩, .start⟩

theorem init_ok (h : ABDyeingHandler.init world dir threads confPath env = .ok s) :
    ∃ conf, Booted world dir threads confPath env conf s := by
  obtain ⟨logics, hlogics, h⟩ := except_bind_eq_ok.mp h
  obtain ⟨conf, hconf, h⟩ := except_bind_eq_ok.mp h
  obtain ⟨types, htypes, h⟩ := except_bind_eq_ok.mp h
  obtain ⟨whitePrefix, hwhitePrefix, h⟩ := except_bind_eq_ok.mp h
  obtain ⟨⟨⟨verdict, whiteList⟩, n⟩, hwhite, h⟩ := except_bind_eq_ok.mp h
  obtain ⟨onlinePrefix, honlinePrefix, h⟩ := except_bind_eq_ok.mp h
  obtain ⟨⟨⟨verdict', onlinePlugin⟩, m⟩, honline, h⟩ := except_bind_eq_ok.mp h
  obtain ⟨freshPrefix, hfreshPrefix, h⟩ := except_bind_eq_ok.mp h
  obtain ⟨freshHour, hhour, h⟩ := except_bind_eq_ok.mp h
  obtain ⟨⟨⟨verdict'', freshUser⟩, k⟩, -, h⟩ := except_bind_eq_ok.mp h
  obtain ⟨⟨kafkaThread, clearThread⟩, hfresh, h⟩ := except_bind_eq_ok.mp h
  obtain rfl := Except.ok.inj h
  have bound := bindLogics_ok (uncaught_eq_ok.mp hlogics)
  obtain ⟨conf', hconf', hfresh⟩ := bind_eq_ok.mp (uncaught_eq_ok.mp hfresh)
  obtain ⟨freshHour', hhour', hfresh⟩ := bind_eq_ok.mp hfresh
  obtain rfl := Except.ok.inj (hconf'.symm.trans (uncaught_eq_ok.mp hconf))
  obtain rfl := Except.ok.inj (hhour'.symm.trans (uncaught_eq_ok.mp hhour))
  obtain ⟨hkafka, hclear⟩ := Prod.mk.inj (Except.ok.inj hfresh)
  exact ⟨conf', {
    parsed := hconf'
    logics := fun thread hmem => (bound thread).1 hmem
    others := fun thread hmem => (bound thread).2 hmem
    types := initTypes_ok htypes
    whitePrefix := uncaught_eq_ok.mp hwhitePrefix
    onlinePrefix := uncaught_eq_ok.mp honlinePrefix
    freshPrefix := uncaught_eq_ok.mp hfreshPrefix
    whiteList := ⟨verdict, whiteList, n, rfl, uncaught_eq_ok.mp hwhite⟩
    onlinePlugin := ⟨verdict', onlinePlugin, n, m, rfl, uncaught_eq_ok.mp honline⟩
    freshUser := rfl
    pushUser := rfl
    fresh := rfl
    flushThread := rfl
    freshThread := ⟨freshHour', hhour', rfl, hclear.symm⟩
    kafkaThread := hkafka.symm }⟩

end Init

/-- The last value that a document gives a key of `/main`. -/
def Document.main (document : Document) (key : Bytes) : Bytes :=
  (lastValue (document.settings []) ([str "main"], key)).getD []

/-- The last value that a document gives a key of `/main/base`. -/
def Document.base (document : Document) (key : Bytes) : Bytes :=
  (lastValue (document.settings []) ([str "main", str "base"], key)).getD []

section Configured

variable {world : World} {document : Document} {confPath : Bytes} {conf : Config}

theorem parseFile_document (named : confPath ≠ [])
    (file : world.files confPath = some document.text) :
    ∃ config, Config.parseFile world confPath = .ok config ∧ ∀ path key,
      config.paramAt path key = lastValue (document.settings []) (path, key) := by
  obtain ⟨config, hparse, params⟩ := document.paramAt_parseString
  refine ⟨config, ?_, params⟩
  rw [Config.parseFile, if_neg (by simpa using named), file]
  exact hparse

/-- What a command line of options has the server start with: the file is the last one named, and a
setting of `/main` goes before the last such option.  It does not start without a file, a port and a
number of threads. -/
theorem readOptions_document {options : List (Bytes × Bytes)}
    (clean : ∀ option ∈ options, 61 ∉ option.1) (world : World) (document : Document)
    (program : Bytes) :
    let given (name : Bytes) := (lastValue options name).getD []
    let value (key : Bytes) :=
      if (document.main key).isEmpty then given key else document.main key
    let started := readOptions world (program :: options.map written)
    (given (str "config") = [] → started = .error (.exit 0)) ∧
      (given (str "config") ≠ [] → world.files (given (str "config")) = some document.text →
        started = if (value (str "port")).isEmpty || (value (str "threadnum")).isEmpty then
            .error (.exit 0)
          else .ok {
            confpath := given (str "config")
            port := atoi (value (str "port"))
            threadnum := atoi (value (str "threadnum"))
            loglevel := if (document.main (str "loglevel")).isEmpty then str "DEBUG"
              else document.main (str "loglevel") }) := by
  intro given value started
  have decoded : Argv.new.decode (program :: options.map written) = ⟨assignAll options ∅, []⟩ :=
    Argv.decodeArgs_written clean _
  have lookup (name : Bytes) :
      (Argv.new.decode (program :: options.map written)).getValue name = given name := by
    rw [decoded, Argv.getValue, lookup_assignAll, Finmap.lookup_empty, Option.or_none]
  constructor
  · intro none
    simp only [started, readOptions, lookup, none, List.isEmpty_nil, if_true]
  · intro named file
    obtain ⟨config, hparse, params⟩ := parseFile_document named file
    have main {sName key : Bytes} (path : parseDomainName sName true = .ok ⟨[str "main"], key⟩) :
        config.get sName [] = .ok (document.main key) := by
      rw [Config.get_of_path path, params]
      rfl
    have option {sName key : Bytes}
        (path : parseDomainName sName true = .ok ⟨[str "main"], key⟩) :
        readOption config (Argv.new.decode (program :: options.map written)) sName key =
          if (value key).isEmpty then .error (.exit 0) else .ok (value key) := by
      simp only [readOption, main path, lookup, uncaught, bind, Except.bind, value]
      cases document.main key with
      | nil => rfl
      | cons c rest => rfl
    have port := @option (str "/main/[port]") (str "port") rfl
    have threadnum := @option (str "/main/[threadnum]") (str "threadnum") rfl
    have loglevel := @main (str "/main/[loglevel]") (str "loglevel") rfl
    have nonempty : (given (str "config")).isEmpty = false := by simpa using named
    simp only [started, readOptions, lookup, nonempty, Bool.false_eq_true, if_false, hparse,
      uncaught, port, threadnum, loglevel, bind, Except.bind]
    cases (value (str "port")).isEmpty with
    | true => rfl
    | false =>
      cases (value (str "threadnum")).isEmpty with
      | true => rfl
      | false => rfl

def bareTags : TagPadding := ⟨noPadding, noPadding, noPadding, noPadding⟩

def mainName : DomainName := ⟨str "main", by decide, by decide, by decide, by decide⟩

/-- A configuration that says as much as a server needs to come up. -/
def bootDocument : Document :=
  let types : ParamLine := ⟨noPadding, str "types", noPadding, str "t", by decide, by decide,
    by decide, by decide, by decide, by decide⟩
  let whitePrefix : ParamLine := ⟨noPadding, str "white_prefix", noPadding, str "/w", by decide,
    by decide, by decide, by decide, by decide, by decide⟩
  .domain mainName bareTags
    (.domain ⟨str "base", by decide, by decide, by decide, by decide⟩ bareTags
      (.param types (.param whitePrefix .done)) .done) .done

/-- A configuration with a broker, so that the Kafka thread comes to its loop. -/
def brokerDocument : Document :=
  let topic : ParamLine := ⟨noPadding, str "topic", noPadding, str "new", by decide, by decide,
    by decide, by decide, by decide, by decide⟩
  let group : ParamLine := ⟨noPadding, str "group", noPadding, str "ab", by decide, by decide,
    by decide, by decide, by decide, by decide⟩
  let broker : ParamLine := ⟨noPadding, str "b", noPadding, str "host:92", by decide, by decide,
    by decide, by decide, by decide, by decide⟩
  .domain mainName bareTags
    (.domain ⟨str "fresh", by decide, by decide, by decide, by decide⟩ bareTags
      (.param topic (.param group
        (.domain ⟨str "brokers", by decide, by decide, by decide, by decide⟩ bareTags
          (.param broker .done) .done))) .done) bootDocument

/-- A configuration that also has 24 for the hour. -/
def lateDocument : Document :=
  let freshHour : ParamLine := ⟨noPadding, str "fresh_hour", noPadding, str "24", by decide,
    by decide, by decide, by decide, by decide, by decide⟩
  .domain mainName bareTags
    (.domain ⟨str "base", by decide, by decide, by decide, by decide⟩ bareTags
      (.param freshHour .done) .done) brokerDocument

def bootWorld : World := { World.blank with files := fun _ => some bootDocument.text }

/-- The threads that answer requests have their logic, and every pointer points to a plugin. -/
structure Configured (document : Document) (threads : List Nat) (handler : ABDyeingHandler) :
    Prop where
  types : handler.types = (document.base (str "types")).splitOn 124
  whitePrefix : handler.whitePrefix = document.base (str "white_prefix")
  onlinePrefix : handler.onlinePrefix = document.base (str "online_prefix")
  freshPrefix : handler.freshPrefix = document.base (str "fresh_prefix")
  logics : ∀ thread ∈ threads, handler.getLogic thread =
    let suffix := document.base (str "fresh_product_suffix")
    some ⟨if suffix.isEmpty then str "fresh" else suffix⟩
  others : ∀ thread ∉ threads, handler.getLogic thread = none
  whiteList : handler.whiteList.isSome
  onlinePlugin : handler.onlinePlugin.isSome
  freshUser : handler.freshUser.isSome
  pushUser : handler.pushUser.isSome

theorem Configured.writes {threads : List Nat} {before after : ABDyeingHandler}
    (configured : Configured document threads before) (writes : Server.Writes before after) :
    Configured document threads after := by
  cases writes with
  | nothing => exact configured
  | whiteList version => exact { configured with whiteList := rfl }
  | onlinePlugin version => exact { configured with onlinePlugin := rfl }
  | freshUser version => exact { configured with freshUser := rfl }
  | pushUser version => exact { configured with pushUser := rfl }
  | kq kq => exact { configured with }

theorem configured_init {dir : Directory} {threads : List Nat} {env : FlushEnv} {s : Server}
    (named : confPath ≠ []) (file : world.files confPath = some document.text)
    (boot : ABDyeingHandler.init world dir threads confPath env = .ok s) :
    Configured document threads s.handler := by
  obtain ⟨conf, booted⟩ := init_ok boot
  obtain ⟨config, hparse, params⟩ := parseFile_document named file
  obtain rfl := Except.ok.inj (hparse.symm.trans booted.parsed)
  have base {sName key value : Bytes}
      (path : parseDomainName sName true = .ok ⟨[str "main", str "base"], key⟩)
      (hget : config.get sName [] = .ok value) : value = document.base key := by
    rw [Config.get_of_path path, params] at hget
    exact (Except.ok.inj hget).symm
  obtain ⟨text, htext, htypes, -⟩ := booted.types
  obtain ⟨_, whiteList, _, white, -⟩ := booted.whiteList
  obtain ⟨_, onlinePlugin, _, _, online, -⟩ := booted.onlinePlugin
  exact {
    types := by
      have value : text = document.base (str "types") := base rfl htext
      rw [htypes, value]
      exact sepstr_splitOn _ 124
    whitePrefix := base rfl booted.whitePrefix
    onlinePrefix := base rfl booted.onlinePrefix
    freshPrefix := base rfl booted.freshPrefix
    logics := fun thread hmem => by
      obtain ⟨logic, hlogic, worker⟩ := booted.logics thread hmem
      obtain ⟨config', hparse', hlogic⟩ := bind_eq_ok.mp hlogic
      obtain rfl := Except.ok.inj (hparse.symm.trans hparse')
      obtain ⟨suffix, hsuffix, hlogic⟩ := bind_eq_ok.mp hlogic
      have value : suffix = document.base (str "fresh_product_suffix") := base rfl hsuffix
      rw [worker, ← Except.ok.inj hlogic, value]
    others := booted.others
    whiteList := by rw [white]; rfl
    onlinePlugin := by rw [online]; rfl
    freshUser := booted.freshUser
    pushUser := by rw [booted.pushUser]; rfl }

end Configured

/-- The online plugin that the nodes of its types make up, the last one empty or not. -/
def ABDyeingHandler.loadedOnlinePlugin (node : Bytes → Bytes) (handler : ABDyeingHandler) :
    DyeingOnlinePlugin :=
  (DyeingOnlinePlugin.loadNodes node (handler.onlineTypes node) false
    (.new handler.onlinePrefix)).2

namespace Server

variable {world : World} {dir : Directory} {threads : List Nat} {confPath : Bytes} {env : FlushEnv}
  {node : Bytes → Bytes} {conf : Config} {s t : Server}

/-- The first load publishes what the nodes of the types make up, and does not ask for the
verdict. -/
theorem loads_of_booted (booted : Booted world dir threads confPath env conf s)
    (holds : env.store.Holds node) :
    s.handler.whiteList = some (s.handler.loadedWhiteList node) ∧
      s.handler.onlinePlugin = some (s.handler.loadedOnlinePlugin node) := by
  obtain ⟨_, whiteList, n, white, hwhite⟩ := booted.whiteList
  obtain ⟨_, onlinePlugin, n, m, online, honline⟩ := booted.onlinePlugin
  rw [DyeingWhiteListPlugin.loadConfig_before (fun i _ => holds i) _ _ le_rfl] at hwhite
  rw [DyeingOnlinePlugin.loadConfig_before (fun i _ => holds i) _ _ le_rfl] at honline
  have loadedWhite := congrArg Prod.snd (congrArg Prod.fst (Except.ok.inj hwhite))
  have loadedOnline := congrArg Prod.snd (congrArg Prod.fst (Except.ok.inj honline))
  exact ⟨white.trans (congrArg some loadedWhite.symm),
    online.trans (congrArg some loadedOnline.symm)⟩

/-- A flush would change nothing of it. -/
theorem inForce_of_booted (booted : Booted world dir threads confPath env conf s)
    (holds : env.store.Holds node) : s.handler.InForce node := by
  obtain ⟨white, online⟩ := loads_of_booted booted holds
  constructor
  · rw [ABDyeingHandler.nextWhiteList]
    split
    · rfl
    · exact white
  · rw [ABDyeingHandler.nextOnlinePlugin]
    split
    · exact online
    · rfl

/-- A server that comes up from a store that stays as it is has it in force at once: from the first
request on, before the flush thread has made a step and whatever the threads do then, a call meets
what the nodes of the types make up, and a user who is listed for every type of a request has each
answered so. -/
theorem calls_from_boot {before after : List ServerStep} {city : CityHash} {faults : Nat → Faults}
    {uid : Bytes} {req : ABDyeingLanRequest} {versions : Nat → Published}
    (boot : ABDyeingHandler.init world dir threads confPath env = .ok s)
    (holds : env.store.Holds node) (steady : Steady node (before ++ after))
    (hrun : s.run world before = .ok t) (meets : Meets world t after versions) :
    (∀ i, (versions i).whiteList = some (s.handler.loadedWhiteList node) ∧
      (versions i).onlinePlugin = some (s.handler.loadedOnlinePlugin node)) ∧
    ∀ thread ∈ threads, (∀ i, faults i .whiteList = none) → req.types ≠ [] →
      ∀ conf : Bytes → Bytes, (∀ type ∈ req.types, Listed node s.handler uid type (conf type)) →
        replyWith city faults uid req versions t.handler thread .new =
          .ok ⟨.rcStatusOk, true, req.types.map fun type => ⟨type, conf type⟩⟩ := by
  obtain ⟨conf, booted⟩ := init_ok boot
  have early : Steady node before := fun store h => steady store (List.mem_append_left _ h)
  have late : Steady node after := fun store h => steady store (List.mem_append_right _ h)
  have settled := settled_run early (inForce_of_booted booted holds) hrun
  have build := run_sameBuild hrun
  have met := versions_of_inForce settled.inForce late meets
  refine ⟨fun i => ?_, fun thread worker quiet asked conf listed => ?_⟩
  · obtain ⟨white, online⟩ := loads_of_booted booted holds
    rw [(met i).1, (met i).2, ← settled.inForce.whiteList, ← settled.inForce.onlinePlugin]
    exact ⟨settled.whiteList.trans white, settled.onlinePlugin.trans online⟩
  · obtain ⟨logic, -, hlogic⟩ := booted.logics thread worker
    have sameLogic : t.handler.getLogic thread = some logic := by
      rw [ABDyeingHandler.getLogic, build.logics]
      exact hlogic
    refine replyWith_listed sameLogic quiet asked (fun i => (met i).1) fun type htype => ?_
    have same := listed type htype
    refine ⟨?_, ?_⟩
    · have loaded := same.loaded
      rwa [ABDyeingHandler.whiteTypes, ← build.types, ← build.whitePrefix] at loaded
    · rw [build.whitePrefix]
      exact same.pair

def bootEnv : FlushEnv := { refusing with store := steady listNode }

theorem calls_from_boot_example :
    ∃ s t, ABDyeingHandler.init bootWorld ∅ [0] (str "a") bootEnv = .ok s ∧
      s.run bootWorld [.flush (steady listNode)] = .ok t ∧
      replyWith (fun _ _ => 0) (fun _ _ => none) (str "u") ⟨str "emui", [], [], [str "t"]⟩
          (fun _ => t.handler.toPublished) t.handler 0 .new =
        .ok ⟨.rcStatusOk, true, [⟨str "t", str "7"⟩]⟩ := by
  obtain ⟨s, boot, types, whitePrefix⟩ :
      ∃ s, ABDyeingHandler.init bootWorld ∅ [0] (str "a") bootEnv = .ok s ∧
        s.handler.types = [str "t"] ∧ s.handler.whitePrefix = str "/w" :=
    ⟨_, rfl, rfl, rfl⟩
  have holds := steady_holds listNode
  have steady : Steady listNode ([.flush (steady listNode)] ++ []) := by
    intro other h
    rw [List.append_nil, List.mem_singleton] at h
    rw [ServerStep.flush.inj h]
    exact holds
  obtain ⟨t, hrun⟩ : ∃ t, s.run bootWorld [.flush (ABDyeing.steady listNode)] = .ok t :=
    ⟨_, (runSteps_singleton _ _).trans (flushStep_of_holds holds)⟩
  have meets : Meets bootWorld t [] fun _ => t.handler.toPublished :=
    ⟨fun _ => ⟨[], t, List.nil_prefix, rfl, rfl⟩, fun _ => ⟨[], t, List.nil_prefix, rfl, rfl⟩⟩
  refine ⟨s, t, boot, hrun, ?_⟩
  refine (calls_from_boot boot holds steady hrun meets).2 0 (by simp) (fun _ => rfl) (by simp)
    (fun _ => str "7") fun type htype => ?_
  rw [List.mem_singleton.mp htype]
  refine ⟨?_, ?_⟩
  · rw [ABDyeingHandler.whiteTypes, types, whitePrefix]
    decide
  · rw [whitePrefix]
    decide

/-- Whatever the threads meet and in whatever order they make their steps: the threads that answer
requests keep the logic that the configuration asks for, and there is a plugin behind each pointer
that a request looks through. -/
theorem configured_run {document : Document} {steps : List ServerStep} (named : confPath ≠ [])
    (file : world.files confPath = some document.text)
    (boot : ABDyeingHandler.init world dir threads confPath env = .ok s)
    (hrun : s.run world steps = .ok t) : Configured document threads t.handler :=
  runSteps_invariant (I := fun u => Configured document threads u.handler)
    (fun _ _ _ _ configured hstep => configured.writes (step_writes hstep))
    (configured_init named file boot) hrun

theorem configured_run_example :
    ∃ s t, ABDyeingHandler.init bootWorld ∅ [0, 5] (str "a") bootEnv = .ok s ∧
      s.run bootWorld [.fresh refusing 3, .clear 3 0, .fresh refusing 3] = .ok t ∧
      t.handler.getLogic 5 = some ⟨str "fresh"⟩ ∧ t.handler.pushUser.isSome := by
  obtain ⟨s, t, boot, hrun⟩ : ∃ s t,
      ABDyeingHandler.init bootWorld ∅ [0, 5] (str "a") bootEnv = .ok s ∧
        s.run bootWorld [.fresh refusing 3, .clear 3 0, .fresh refusing 3] = .ok t :=
    ⟨_, _, rfl, rfl⟩
  have configured := configured_run (by decide) rfl boot hrun
  exact ⟨s, t, boot, hrun, (configured.logics 5 (by simp)).trans rfl, configured.pushUser⟩

end Server

end ABDyeing
