import ABDyeing.FlushPolicy

/-! Which source answers a request: the white list before everything else, by the last entry for the
user in the text of the type; and for a user without a push type, an app name that says whether he
is new, under which the online policies are looked up. -/

namespace ABDyeing

open Lib

section Entries

/-- The entries of a white-list text, which `;` separates. -/
def whiteEntries (text : Bytes) : List Bytes := (text.splitOn 59).filter (· ≠ [])

/-- The fields of an entry, which `=` separates. -/
def entryFields (entry : Bytes) : List Bytes := (entry.splitOn 61).filter (· ≠ [])

def Lists (text uid : Bytes) : Prop :=
  ∃ entry ∈ whiteEntries text, ∃ c, entryFields entry = [uid, c]

/-- The last entry of the text that assigns something to `uid` assigns `c` to it. -/
def LastListed (text uid c : Bytes) : Prop :=
  ∃ before entry after, whiteEntries text = before ++ entry :: after ∧
    entryFields entry = [uid, c] ∧ ∀ later ∈ after, ∀ c', entryFields later ≠ [uid, c']

theorem parseKeyValue_eq_some {entry uid c : Bytes} :
    parseKeyValue entry = some (uid, c) ↔ entryFields entry = [uid, c] := by
  have fields : sepstr entry (str "=") false = entryFields entry := sepstr_skipEmpty entry 61
  unfold parseKeyValue
  rw [fields]
  split
  · rename_i k v hfields
    simp [hfields]
  · rename_i other
    simp only [reduceCtorEq, false_iff]
    exact other uid c

theorem parsePairs_eq (text : Bytes) :
    DyeingWhiteListPlugin.parsePairs text = (whiteEntries text).filterMap parseKeyValue :=
  congrArg _ (sepstr_skipEmpty text 59)

theorem lastValue_eq_some_iff {text uid c : Bytes} :
    lastValue (DyeingWhiteListPlugin.parsePairs text) uid = some c ↔ LastListed text uid c := by
  rw [parsePairs_eq, lastValue_filterMap_eq_some]
  simp only [parseKeyValue_eq_some, ne_eq]
  rfl

theorem lastValue_eq_none_iff {text uid : Bytes} :
    lastValue (DyeingWhiteListPlugin.parsePairs text) uid = none ↔ ¬Lists text uid := by
  rw [parsePairs_eq, lastValue_eq_none]
  simp only [List.mem_map, List.mem_filterMap, parseKeyValue_eq_some, Prod.exists,
    exists_and_right, exists_eq_right, Lists]
  refine not_congr ⟨?_, ?_⟩
  · intro ⟨c, entry, hentry, hfields⟩
    exact ⟨entry, hentry, c, hfields⟩
  · intro ⟨entry, hentry, c, hfields⟩
    exact ⟨c, entry, hentry, hfields⟩

end Entries

namespace DyeingLogic

variable {logic : DyeingLogic} {city : CityHash} {published other : Published} {faults : Faults}
  {uid app appVer appLan type : Bytes} {reply : ABDyeingReply}

/-- The reply depends on what the sources hold for the user, and on nothing else in them. -/
theorem onDyeing_congr
    (white : handleWhiteList other.whiteList uid type =
      handleWhiteList published.whiteList uid type)
    (fresh : handleFreshUser other.freshUser other.kq uid =
      handleFreshUser published.freshUser published.kq uid)
    (push : handlePushUser other.pushUser uid (str "noticias") =
      handlePushUser published.pushUser uid (str "noticias"))
    (online : other.onlinePlugin = published.onlinePlugin) :
    logic.onDyeing city other faults uid app appVer appLan type reply =
      logic.onDyeing city published faults uid app appVer appLan type reply := by
  have sameApp : logic.dyeingApp other faults uid app type =
      logic.dyeingApp published faults uid app type := by
    unfold dyeingApp
    rw [fresh]
    split
    · rename_i h
      rw [h.2, push]
    · rfl
  unfold onDyeing
  rw [white, sameApp, online]

theorem onDyeing_of_whiteList (noFault : faults .whiteList = none) {c : Bytes}
    (h : handleWhiteList published.whiteList uid type = some c) :
    logic.onDyeing city published faults uid app appVer appLan type reply =
      .ok (true, reply.pushBack type c) := by
  simp only [onDyeing, Faults.at_of_none noFault, h, bind, Except.bind]
  rfl

end DyeingLogic

namespace ABDyeingHandler

variable {node : Bytes → Bytes} {store : Store}

theorem get_flushWhiteList (holds : store.Holds node) (handler : ABDyeingHandler) (n : Nat)
    {type : Bytes} (htype : type ∈ handler.whiteTypes node) (uid : Bytes) :
    DyeingLogic.handleWhiteList (handler.flushWhiteList store n).1.whiteList uid type =
      lastValue (DyeingWhiteListPlugin.parsePairs (node (fullPath handler.whitePrefix type)))
        uid := by
  rw [flushWhiteList_of_holds holds]
  change DyeingLogic.handleWhiteList (handler.nextWhiteList node) uid type = _
  rw [get_nextWhiteList (List.ne_nil_of_mem htype), if_pos htype]

end ABDyeingHandler

open DyeingLogic in
/-- Once the text of a type is loaded, a user who is listed in it is answered with the last config
id listed for him, from no other source; for another user the white list might as well be empty. -/
theorem onDyeing_whiteList {node : Bytes → Bytes} {store : Store} (holds : store.Holds node)
    (handler : ABDyeingHandler) (n : Nat) {type : Bytes} (htype : type ∈ handler.whiteTypes node)
    {faults : Faults} (noFault : faults .whiteList = none) (logic : DyeingLogic) (city : CityHash)
    (uid app appVer appLan : Bytes) (reply : ABDyeingReply) :
    let text := node (fullPath handler.whitePrefix type)
    let published := (handler.flushWhiteList store n).1.toPublished
    let answer (published : Published) :=
      logic.onDyeing city published faults uid app appVer appLan type reply
    (Lists text uid → ∃ c, LastListed text uid c ∧ answer published =
      .ok (true, { reply with isset := true, entries := reply.entries ++ [⟨type, c⟩] })) ∧
    (¬Lists text uid → handleWhiteList published.whiteList uid type = none ∧
      ∀ plugin : DyeingWhiteListPlugin, plugin.confs type = ∅ →
        answer published = answer { published with whiteList := some plugin }) := by
  intro text published answer
  have hget : handleWhiteList published.whiteList uid type =
      lastValue (DyeingWhiteListPlugin.parsePairs text) uid :=
    ABDyeingHandler.get_flushWhiteList holds handler n htype uid
  constructor
  · intro hlists
    cases hlast : lastValue (DyeingWhiteListPlugin.parsePairs text) uid with
    | none => exact absurd hlists (lastValue_eq_none_iff.mp hlast)
    | some c =>
      refine ⟨c, lastValue_eq_some_iff.mp hlast, ?_⟩
      exact onDyeing_of_whiteList noFault (hget.trans hlast)
  · intro hnone
    have hwhite := hget.trans (lastValue_eq_none_iff.mpr hnone)
    refine ⟨hwhite, fun plugin hempty => ?_⟩
    have hplugin : plugin.get uid type = none := by
      rw [DyeingWhiteListPlugin.get_eq, hempty, Finmap.lookup_empty]
    exact onDyeing_congr (hwhite.trans hplugin.symm) rfl rfl rfl

def listedNode (path : Bytes) : Bytes :=
  if path = str "/w/t/value" then str ";u=a;=v==b=;u=c;u" else []

theorem onDyeing_whiteList_example :
    ∃ c, LastListed (str ";u=a;=v==b=;u=c;u") (str "u") c ∧
      (⟨str "fresh"⟩ : DyeingLogic).onDyeing (fun _ _ => 0)
        ((ABDyeingHandler.blank [str "t"]).flushWhiteList (steady listedNode) 0).1.toPublished
        (fun _ => none) (str "u") (str "app") [] [] (str "t") .new =
          .ok (true, ⟨.rcStatusOk, true, [⟨str "t", c⟩]⟩) := by
  have htype : str "t" ∈ (ABDyeingHandler.blank [str "t"]).whiteTypes listedNode := by decide
  have lists : Lists (str ";u=a;=v==b=;u=c;u") (str "u") :=
    ⟨str "u=a", by decide, str "a", by decide⟩
  exact (onDyeing_whiteList (steady_holds listedNode) (ABDyeingHandler.blank [str "t"]) 0 htype rfl
    _ _ (str "u") _ _ _ _).1 lists

namespace DyeingLogic

/-- `onDyeing` gets as far as the online policies, and hands `name` to them as the app. -/
def LooksUpUnder (logic : DyeingLogic) (published : Published) (faults : Faults)
    (uid app type name : Bytes) : Prop :=
  faults.at .whiteList (.ok (handleWhiteList published.whiteList uid type)) = .ok none ∧
    logic.dyeingApp published faults uid app type = .ok name

def InFreshTable (published : Published) (uid : Bytes) : Prop :=
  ∃ plugin, published.freshUser = some plugin ∧ uid ∈ plugin.map

variable {logic : DyeingLogic} {published : Published} {faults : Faults} {uid app type : Bytes}

theorem onDyeing_of_looksUp {name : Bytes}
    (h : logic.LooksUpUnder published faults uid app type name) (city : CityHash)
    (appVer appLan : Bytes) (reply : ABDyeingReply) :
    logic.onDyeing city published faults uid app appVer appLan type reply = (do
      match ← faults.at .online
          (handleOnlineHash city published.onlinePlugin uid name appVer appLan type) with
      | some configId => return (true, reply.pushBack type configId)
      | none => return (false, reply)) := by
  obtain ⟨hwhite, happ⟩ := h
  rw [onDyeing, hwhite]
  change (logic.dyeingApp published faults uid app type >>= _) = _
  rw [happ]
  rfl

/-- The daily table is asked before the Kafka queue, and hides it. -/
theorem handleFreshUser_eq (published : Published) (uid : Bytes)
    [Decidable (InFreshTable published uid)] :
    handleFreshUser published.freshUser published.kq uid =
      if InFreshTable published uid then 1 else if uid ∈ published.kq then 2 else 0 := by
  have table : InFreshTable published uid ↔
      ∃ plugin, published.freshUser = some plugin ∧ uid ∈ plugin.map := Iff.rfl
  simp only [table, handleFreshUser]
  cases published.freshUser with
  | none => simp
  | some plugin => by_cases hmem : uid ∈ plugin.map <;> simp [DyeingFreshUserPlugin.get, hmem]

theorem handleFreshUser_of_queued (hkq : uid ∈ published.kq) :
    handleFreshUser published.freshUser published.kq uid = 2 ↔ ¬InFreshTable published uid := by
  classical
  rw [handleFreshUser_eq]
  by_cases htable : InFreshTable published uid <;> simp [htable, hkq]

/-- A user in the Kafka queue is looked up as a new user, and not as a recurring one, if and only if
he is not in the daily table of new users. -/
theorem looksUpAsNew_iff (hkq : uid ∈ published.kq)
    (hwhite : handleWhiteList published.whiteList uid (str "biz") = none)
    (hpush : handlePushUser published.pushUser uid (str "noticias") = none)
    (noFault : ∀ lookup, lookup ≠ .online → faults lookup = none) :
    (logic.LooksUpUnder published faults uid (str "noticias") (str "biz") (str "noticias_new") ∧
      ¬logic.LooksUpUnder published faults uid (str "noticias") (str "biz")
        (str "noticias_recurring")) ↔ ¬InFreshTable published uid := by
  have quiet {α : Type} (lookup : Lookup) (h : lookup ≠ .online) (a : Outcome Exception α) :
      faults.at lookup a = a := Faults.at_of_none (noFault lookup h) a
  have name : logic.dyeingApp published faults uid (str "noticias") (str "biz") =
      .ok (if handleFreshUser published.freshUser published.kq uid = 2 then str "noticias_new"
        else str "noticias_recurring") := by
    unfold dyeingApp
    rw [if_pos ⟨rfl, rfl⟩, quiet .pushUser (by decide), quiet .freshUser (by decide), hpush]
    simp only [bind, Except.bind]
    split <;> rfl
  rw [← handleFreshUser_of_queued hkq]
  unfold LooksUpUnder
  rw [name, quiet .whiteList (by decide), hwhite]
  by_cases hnew : handleFreshUser published.freshUser published.kq uid = 2
  · simp [hnew]
    decide
  · simp [hnew]

def queued : Published :=
  ⟨none, none, none, none, (∅ : UnorderedMap Bytes UInt64).insert (str "u") 1⟩

/-- The daily table as it is once `u` has been added to it. -/
def queuedAndListed : Published :=
  { queued with freshUser := some ⟨str "/f", (∅ : UnorderedMap Bytes UInt64).insert (str "u") 2⟩ }

theorem looksUpAsNew_iff_example :
    (⟨str "fresh"⟩ : DyeingLogic).LooksUpUnder queued (fun _ => none) (str "u") (str "noticias")
      (str "biz") (str "noticias_new") := by
  have hnot : ¬InFreshTable queued (str "u") := fun ⟨_, h, _⟩ => by cases h
  exact ((looksUpAsNew_iff (by decide) rfl rfl fun _ _ => rfl).mpr hnot).1

/-- The user is new as long as the queue alone has him, and recurring once the table has him too. -/
theorem looksUpAsNew_fails_example :
    str "u" ∈ queuedAndListed.kq ∧
      handleWhiteList queuedAndListed.whiteList (str "u") (str "biz") = none ∧
      handlePushUser queuedAndListed.pushUser (str "u") (str "noticias") = none ∧
      ¬((⟨str "fresh"⟩ : DyeingLogic).LooksUpUnder queuedAndListed (fun _ => none) (str "u")
          (str "noticias") (str "biz") (str "noticias_new") ∧
        ¬(⟨str "fresh"⟩ : DyeingLogic).LooksUpUnder queuedAndListed (fun _ => none) (str "u")
          (str "noticias") (str "biz") (str "noticias_recurring")) := by
  exact ⟨by decide, rfl, rfl, fun ⟨_, h⟩ => h ⟨rfl, rfl⟩⟩

end DyeingLogic

end ABDyeing
