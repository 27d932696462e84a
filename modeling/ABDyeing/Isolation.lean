import ABDyeing.FlushPushUser
import ABDyeing.Fresh.CurrentFresh
import ABDyeing.Precedence
import ABDyeing.Rpc

/-! What an update about one user changes for another one: nothing, as long as what is published
about the other user is what the store said about him.  A flush takes in everything that the store
holds, and a refresh without records keeps what was there before. -/

namespace ABDyeing

open Lib

/-- `after` holds for `uid` what `before` holds. -/
structure SameFor (uid : Bytes) (before after : Published) : Prop where
  white : ∀ type, DyeingLogic.handleWhiteList after.whiteList uid type =
    DyeingLogic.handleWhiteList before.whiteList uid type
  fresh : DyeingLogic.handleFreshUser after.freshUser after.kq uid =
    DyeingLogic.handleFreshUser before.freshUser before.kq uid
  push : DyeingLogic.handlePushUser after.pushUser uid (str "noticias") =
    DyeingLogic.handlePushUser before.pushUser uid (str "noticias")
  online : after.onlinePlugin = before.onlinePlugin

namespace ABDyeingHandler

/-- The two calls answer `uid` in the state `after` as they do in `handler`. -/
def SameReplies (uid : Bytes) (handler after : ABDyeingHandler) : Prop :=
  ∀ city thread faults reply,
    (∀ req, dyeing city after thread faults reply uid req =
      dyeing city handler thread faults reply uid req) ∧
    ∀ req, dyeingLan city after thread faults reply uid req =
      dyeingLan city handler thread faults reply uid req

variable {handler after : ABDyeingHandler} {uid : Bytes}

theorem SameReplies.of_eq (uid : Bytes) (h : after = handler) : SameReplies uid handler after := by
  subst h
  exact fun _ _ _ _ => ⟨fun _ => rfl, fun _ => rfl⟩

theorem SameReplies.trans {last : ABDyeingHandler} (h : SameReplies uid handler after)
    (h' : SameReplies uid after last) : SameReplies uid handler last := by
  intro city thread faults reply
  obtain ⟨same, sameLan⟩ := h city thread faults reply
  obtain ⟨same', sameLan'⟩ := h' city thread faults reply
  exact ⟨fun req => (same' req).trans (same req), fun req => (sameLan' req).trans (sameLan req)⟩

theorem dyeingLanTypes_congr (same : SameFor uid handler.toPublished after.toPublished)
    (city : CityHash) (logic : DyeingLogic) (faults : Nat → Faults) (app appVer appLan : Bytes)
    (i : Nat) (types : List Bytes) (reply : ABDyeingReply) :
    dyeingLanTypes city after logic faults uid app appVer appLan i types reply =
      dyeingLanTypes city handler logic faults uid app appVer appLan i types reply := by
  induction types generalizing i reply with
  | nil => rfl
  | cons type types ih =>
    rw [dyeingLanTypes, dyeingLanTypes,
      DyeingLogic.onDyeing_congr (same.white type) same.fresh same.push same.online]
    split
    · rfl
    · exact ih (i + 1) _

theorem sameReplies (same : SameFor uid handler.toPublished after.toPublished)
    (logics : after.logics = handler.logics) : SameReplies uid handler after := by
  intro city thread faults reply
  have sameLan (req : ABDyeingLanRequest) :
      dyeingLan city after thread faults reply uid req =
        dyeingLan city handler thread faults reply uid req := by
    simp only [dyeingLan, getLogic, logics, dyeingLanTypes_congr same]
  refine ⟨fun req => ?_, sameLan⟩
  obtain ⟨app, appVer, types⟩ := req
  rw [dyeing_eq_dyeingLan, dyeing_eq_dyeingLan, sameLan]

end ABDyeingHandler

section WhiteList

/-- A uid or config id that a white-list text can hold in one field. -/
structure Field (s : Bytes) : Prop where
  nonempty : s ≠ []
  noSemicolon : 59 ∉ s
  noEquals : 61 ∉ s

def entryOf (uid configId : Bytes) : Bytes := uid ++ str "=" ++ configId

theorem whiteEntries_append (text entry : Bytes) :
    whiteEntries (text ++ str ";" ++ entry) = whiteEntries text ++ whiteEntries entry := by
  have parts : text ++ str ";" ++ entry = text ++ 59 :: entry := by
    rw [List.append_assoc]
    rfl
  rw [parts, whiteEntries, List.splitOn_append_cons_self, List.filter_append]
  rfl

theorem parsePairs_entryOf {uid configId : Bytes} (huid : Field uid) (hconfig : Field configId) :
    DyeingWhiteListPlugin.parsePairs (entryOf uid configId) = [(uid, configId)] := by
  have parts : entryOf uid configId = uid ++ 61 :: configId := by
    rw [entryOf, List.append_assoc]
    rfl
  have entries : whiteEntries (entryOf uid configId) = [entryOf uid configId] := by
    have clean : 59 ∉ entryOf uid configId := by
      simp [parts, huid.noSemicolon, hconfig.noSemicolon]
    rw [whiteEntries, List.splitOn_eq_singleton clean]
    simp [parts]
  have fields : entryFields (entryOf uid configId) = [uid, configId] := by
    rw [entryFields, parts, List.splitOn_append_cons_self_of_not_mem huid.noEquals,
      List.splitOn_eq_singleton hconfig.noEquals]
    simp [huid.nonempty, hconfig.nonempty]
  rw [parsePairs_eq, entries]
  simp [parseKeyValue_eq_some.mpr fields]

/-- An entry for another user does not count, wherever his name is a part of this one's. -/
theorem lastValue_append_entry {text uid v configId : Bytes} (hne : uid ≠ v) (hv : Field v)
    (hconfig : Field configId) :
    lastValue (DyeingWhiteListPlugin.parsePairs (text ++ str ";" ++ entryOf v configId)) uid =
      lastValue (DyeingWhiteListPlugin.parsePairs text) uid := by
  have pairs : DyeingWhiteListPlugin.parsePairs (text ++ str ";" ++ entryOf v configId) =
      DyeingWhiteListPlugin.parsePairs text ++ [(v, configId)] := by
    rw [← parsePairs_entryOf hv hconfig]
    simp only [parsePairs_eq, whiteEntries_append, List.filterMap_append]
  have other : lastValue [(v, configId)] uid = none := lastValue_eq_none.mpr (by simpa using hne)
  rw [pairs, lastValue_append, other, Option.none_or]

/-- `after` is `node` with this entry appended to the text at the path. -/
structure Appends (node after : Bytes → Bytes) (path entry : Bytes) : Prop where
  appended : after path = node path ++ str ";" ++ entry
  elsewhere : ∀ p, p ≠ path → after p = node p

theorem fullPath_inj {pathPrefix t t' : Bytes}
    (h : fullPath pathPrefix t = fullPath pathPrefix t') : t = t' := by
  have h := List.append_cancel_right h
  exact List.append_cancel_left h

theorem value_ne_fullPath (pathPrefix t : Bytes) :
    pathPrefix ++ str "/value" ≠ fullPath pathPrefix t := by
  intro h
  have hlength := congrArg List.length h
  simp only [fullPath, List.length_append] at hlength
  have : (str "/").length = 1 := rfl
  omega

namespace ABDyeingHandler

variable {node node' : Bytes → Bytes} {store : Store} {handler : ABDyeingHandler}
  {uid v configId type : Bytes}

/-- What is published about `uid` is what these texts say. -/
def WhiteCurrent (handler : ABDyeingHandler) (node : Bytes → Bytes) (uid : Bytes) : Prop :=
  ∀ type, DyeingLogic.handleWhiteList handler.whiteList uid type =
    DyeingLogic.handleWhiteList (handler.nextWhiteList node) uid type

theorem nextWhiteList_of_appends (hne : uid ≠ v) (hv : Field v) (hconfig : Field configId)
    (h : Appends node node' (fullPath handler.whitePrefix type) (entryOf v configId))
    (t : Bytes) :
    DyeingLogic.handleWhiteList (handler.nextWhiteList node') uid t =
      DyeingLogic.handleWhiteList (handler.nextWhiteList node) uid t := by
  have types : handler.whiteTypes node' = handler.whiteTypes node := by
    unfold whiteTypes
    rw [h.elsewhere _ (value_ne_fullPath handler.whitePrefix type)]
  by_cases hnone : handler.whiteTypes node = []
  · simp only [nextWhiteList, types, if_pos hnone]
  · have text : lastValue (DyeingWhiteListPlugin.parsePairs
          (node' (fullPath handler.whitePrefix t))) uid =
        lastValue (DyeingWhiteListPlugin.parsePairs (node (fullPath handler.whitePrefix t)))
          uid := by
      by_cases ht : t = type
      · rw [ht, h.appended, lastValue_append_entry hne hv hconfig]
      · rw [h.elsewhere _ fun hpath => ht (fullPath_inj hpath)]
    rw [get_nextWhiteList (types ▸ hnone), get_nextWhiteList hnone, types, text]

/-- The online policies in the store are the published ones. -/
def OnlineCurrent (handler : ABDyeingHandler) (node : Bytes → Bytes) : Prop :=
  handler.nextOnlinePlugin node = handler.onlinePlugin

theorem sameReplies_flushPolicy (hne : uid ≠ v) (hv : Field v) (hconfig : Field configId)
    (h : Appends node node' (fullPath handler.whitePrefix type) (entryOf v configId))
    (holds : store.Holds node') (current : handler.WhiteCurrent node uid)
    (online : handler.OnlineCurrent node') (n : Nat) :
    SameReplies uid handler (handler.flushPolicy store n).1 := by
  rw [flushPolicy_of_holds holds]
  refine sameReplies ⟨fun t => ?_, rfl, rfl, online⟩ rfl
  exact (nextWhiteList_of_appends hne hv hconfig h t).trans (current t).symm

end ABDyeingHandler

end WhiteList

section Rows

/-- The two results differ in nothing but rows of this kind. -/
def SameBut (about : Row → Bool) (before after : List Row) : Prop :=
  after.filter (!about ·) = before.filter (!about ·)

def Row.isOf (uid : Bytes) (row : Row) : Bool := row.lookup (str "uid") = some uid

def Row.isNoticiasOf (uid : Bytes) (row : Row) : Bool :=
  row.isOf uid && decide (row.lookup (str "product_id") = some (str "noticias"))

theorem SameBut.mem_iff {about : Row → Bool} {before after : List Row}
    (h : SameBut about before after) {row : Row} (hrow : about row = false) :
    row ∈ after ↔ row ∈ before := by
  have hmem : row ∈ after.filter (!about ·) ↔ row ∈ before.filter (!about ·) := by rw [h]
  simpa [List.mem_filter, hrow] using hmem

theorem SameBut.exists_isOf_iff {uid v : Bytes} (hne : uid ≠ v) {before after : List Row}
    (h : SameBut (Row.isOf v) before after) :
    (∃ row ∈ after, row.lookup (str "uid") = some uid) ↔
      ∃ row ∈ before, row.lookup (str "uid") = some uid := by
  refine exists_congr fun row => and_congr_left fun huid => h.mem_iff ?_
  simpa [Row.isOf, huid] using hne

theorem Row.userKey_of_isNoticiasOf {uid : Bytes} {row : Row} (h : row.isNoticiasOf uid) :
    row.userKey = noticiasKey uid := by
  simp only [isNoticiasOf, isOf, Bool.and_eq_true, decide_eq_true_eq] at h
  simp only [userKey, get, h.1, h.2, Option.getD_some, noticiasKey]

theorem get_updateRows_of_sameBut {uid v : Bytes} (hne : uid ≠ v) {before after : List Row}
    (h : SameBut (Row.isNoticiasOf v) before after) (plugin : DyeingPushUserTypePlugin) :
    (updateRows DyeingPushUserTypePlugin.update 0 after plugin).get uid (str "noticias") =
      (updateRows DyeingPushUserTypePlugin.update 0 before plugin).get uid (str "noticias") := by
  have others (rows : List Row) : rows.filter (·.userKey = noticiasKey uid) =
      (rows.filter (!Row.isNoticiasOf v ·)).filter (·.userKey = noticiasKey uid) := by
    rw [List.filter_filter]
    refine List.filter_congr fun row _ => ?_
    cases hrow : row.isNoticiasOf v with
    | false => simp
    | true => simp [Row.userKey_of_isNoticiasOf hrow, PushRow.noticiasKey_inj, hne.symm]
  have lookup : (updateRows DyeingPushUserTypePlugin.update 0 after plugin).userTypeMap.lookup
        (noticiasKey uid) =
      (updateRows DyeingPushUserTypePlugin.update 0 before plugin).userTypeMap.lookup
        (noticiasKey uid) := by
    rw [DyeingPushUserTypePlugin.lookup_updateRows rfl after 0 0,
      DyeingPushUserTypePlugin.lookup_updateRows rfl before 0 0, others after, others before, h]
  exact congrArg (Option.map UserType.userType) lookup

open DyeingLogic in
theorem handleFreshUser_congr {before after : Published} {uid : Bytes}
    (table : InFreshTable after uid ↔ InFreshTable before uid)
    (queue : uid ∈ after.kq ↔ uid ∈ before.kq) :
    handleFreshUser after.freshUser after.kq uid =
      handleFreshUser before.freshUser before.kq uid := by
  classical
  simp only [handleFreshUser_eq, table, queue]

namespace ABDyeingHandler

variable {node : Bytes → Bytes} {store : Store} (holds : store.Holds node)
  (handler : ABDyeingHandler) {client : MysqlClient} {time : Int64} {uid v : Bytes}
  {rows : List Row}

/-- What is published about `uid` is what these rows say. -/
def FreshCurrent (handler : ABDyeingHandler) (rows : List Row) (uid : Bytes) : Prop :=
  DyeingLogic.InFreshTable handler.toPublished uid ↔
    ∃ row ∈ rows, row.lookup (str "uid") = some uid

include holds in
theorem sameReplies_flushFreshUser (hne : uid ≠ v)
    (delivers : ∀ records, Delivers client (storedDBConf node handler.freshPrefix)
      (DyeingFreshUserPlugin.sql time) records → SameBut (Row.isOf v) rows records)
    (current : handler.FreshCurrent rows uid) (clock : Nat → UInt64) (n : Nat) :
    SameReplies uid handler (handler.flushFreshUser store client time clock n).1 := by
  rcases flushFreshUser_cases holds handler client time clock n with
    unchanged | ⟨records, plugin, hdelivers, held, published⟩
  · exact .of_eq uid unchanged
  · rw [published]
    refine sameReplies ⟨fun _ => rfl, handleFreshUser_congr ?_ Iff.rfl, rfl, rfl⟩ rfl
    calc DyeingLogic.InFreshTable { handler.toPublished with freshUser := some plugin } uid
      _ ↔ uid ∈ plugin.map := by simp [DyeingLogic.InFreshTable]
      _ ↔ ∃ row ∈ records, row.lookup (str "uid") = some uid := held uid
      _ ↔ ∃ row ∈ rows, row.lookup (str "uid") = some uid :=
        (delivers records hdelivers).exists_isOf_iff hne
      _ ↔ DyeingLogic.InFreshTable handler.toPublished uid := current.symm

/-- What is published about `uid` is what these rows say. -/
def PushCurrent (handler : ABDyeingHandler) (rows : List Row) (uid : Bytes) : Prop :=
  DyeingLogic.handlePushUser handler.pushUser uid (str "noticias") =
    (updateRows DyeingPushUserTypePlugin.update 0 rows (.new handler.freshPrefix)).get uid
      (str "noticias")

include holds in
theorem sameReplies_flushPushUser (hne : uid ≠ v)
    (delivers : ∀ records, Delivers client (storedDBConf node handler.freshPrefix)
      DyeingPushUserTypePlugin.sql records → SameBut (Row.isNoticiasOf v) rows records)
    (current : handler.PushCurrent rows uid) (n : Nat) :
    SameReplies uid handler (handler.flushPushUser store client n).1 := by
  rcases flushPushUser_cases holds handler client n with
    unchanged | ⟨records, plugin, hdelivers, rfl, published⟩
  · exact .of_eq uid unchanged
  · rw [published]
    refine sameReplies ⟨fun _ => rfl, rfl, ?_, rfl⟩ rfl
    exact (get_updateRows_of_sameBut hne (delivers records hdelivers) _).trans current.symm

include holds in
theorem sameReplies_flushFreshUserPolicy (hne : uid ≠ v) {freshClient pushClient : MysqlClient}
    {freshRows pushRows : List Row}
    (freshDelivers : ∀ records, Delivers freshClient (storedDBConf node handler.freshPrefix)
      (DyeingFreshUserPlugin.sql time) records → SameBut (Row.isOf v) freshRows records)
    (pushDelivers : ∀ records, Delivers pushClient (storedDBConf node handler.freshPrefix)
      DyeingPushUserTypePlugin.sql records → SameBut (Row.isNoticiasOf v) pushRows records)
    (freshCurrent : handler.FreshCurrent freshRows uid)
    (pushCurrent : handler.PushCurrent pushRows uid) (clock : Nat → UInt64) (n : Nat) :
    SameReplies uid handler
      (handler.flushFreshUserPolicy store freshClient pushClient time clock n).1 := by
  have first := sameReplies_flushFreshUser holds handler hne freshDelivers freshCurrent clock n
  have second (freshUser : Option DyeingFreshUserPlugin) (m : Nat) :=
    sameReplies_flushPushUser holds { handler with freshUser := freshUser } hne pushDelivers
      pushCurrent m
  have kept : ∃ freshUser, (handler.flushFreshUser store freshClient time clock n).1 =
      { handler with freshUser := freshUser } := by
    rcases flushFreshUser_cases holds handler freshClient time clock n with
      unchanged | ⟨_, plugin, -, -, published⟩
    · exact ⟨handler.freshUser, unchanged⟩
    · exact ⟨some plugin, published⟩
  obtain ⟨freshUser, hkept⟩ := kept
  unfold flushFreshUserPolicy
  generalize handler.flushFreshUser store freshClient time clock n = flushed at first hkept ⊢
  obtain ⟨between, ends⟩ := flushed
  obtain rfl : between = { handler with freshUser := freshUser } := hkept
  cases ends with
  | error e => exact first
  | ok m => exact first.trans (second freshUser m)

end ABDyeingHandler

end Rows

namespace ABDyeingHandler

/-- Whatever is updated about `v`, the replies to `uid` stay as they were, as long as what the flush
replaces is what the store said about `uid` before the update. -/
theorem replies_isolated (handler : ABDyeingHandler) {uid v : Bytes} (hne : uid ≠ v) :
    (∀ {store : Store} {node node' : Bytes → Bytes} {type configId : Bytes} (n : Nat),
      store.Holds node' → Field v → Field configId →
      Appends node node' (fullPath handler.whitePrefix type) (entryOf v configId) →
      handler.WhiteCurrent node uid → handler.OnlineCurrent node' →
      SameReplies uid handler (handler.flushPolicy store n).1) ∧
    (∀ {store : Store} {node : Bytes → Bytes} {freshClient pushClient : MysqlClient} {time : Int64}
      {freshRows pushRows : List Row} (clock : Nat → UInt64) (n : Nat), store.Holds node →
      (∀ records, Delivers freshClient (storedDBConf node handler.freshPrefix)
        (DyeingFreshUserPlugin.sql time) records → SameBut (Row.isOf v) freshRows records) →
      (∀ records, Delivers pushClient (storedDBConf node handler.freshPrefix)
        DyeingPushUserTypePlugin.sql records → SameBut (Row.isNoticiasOf v) pushRows records) →
      handler.FreshCurrent freshRows uid → handler.PushCurrent pushRows uid →
      SameReplies uid handler
        (handler.flushFreshUserPolicy store freshClient pushClient time clock n).1) ∧
    ∀ (fresh : CurrentFresh) (t1 t2 : UInt64), handler.kq = fresh.kq →
      SameReplies uid handler { handler with kq := (fresh.set t1 t2 v).kq } := by
  refine ⟨fun n holds hv hconfig h current online =>
    sameReplies_flushPolicy hne hv hconfig h holds current online n,
    fun clock n holds freshDelivers pushDelivers freshCurrent pushCurrent =>
      sameReplies_flushFreshUserPolicy holds handler hne freshDelivers pushDelivers freshCurrent
        pushCurrent clock n, fun fresh t1 t2 hkq => ?_⟩
  refine sameReplies ⟨fun _ => rfl, handleFreshUser_congr Iff.rfl ?_, rfl, rfl⟩ rfl
  change uid ∈ (fresh.set t1 t2 v).kq ↔ uid ∈ handler.kq
  simp [hkq, hne]

def appendAt (node : Bytes → Bytes) (path entry p : Bytes) : Bytes :=
  if p = path then node path ++ str ";" ++ entry else node p

theorem appendAt_appends (node : Bytes → Bytes) (path entry : Bytes) :
    Appends node (appendAt node path entry) path entry :=
  ⟨if_pos rfl, fun _ h => if_neg h⟩

def uidResult (uids : List Bytes) : ResultSet :=
  ⟨[str "uid"], uids.map fun uid => [some uid], by simp⟩

def uidRows (uids : List Bytes) : List Row :=
  (uidResult uids).rows.map (toRow [str "uid"])

theorem delivers_uidResult {uids : List Bytes} {sql : Bytes} {records : List Row}
    (h : Delivers (answering true (uidResult uids)) (storedDBConf (fun _ => []) (str "/f")) sql
      records) : records = uidRows uids :=
  h.unique ⟨_, rfl, rfl⟩

def uvListed (path : Bytes) : Bytes := if path = str "/w/t/value" then str "uv=a" else []

/-- The user `uv` is in the white list and among the new users. -/
def uvPublished : ABDyeingHandler :=
  { blank [str "t"] with
    whiteList := (blank [str "t"]).nextWhiteList uvListed
    freshUser := some ⟨str "/f", (∅ : UnorderedMap Bytes UInt64).insert (str "uv") 1⟩
    logics := fun _ => some ⟨str "fresh"⟩ }

theorem replies_isolated_example :
    let appended := appendAt uvListed (str "/w/t/value") (entryOf (str "u") (str "b"))
    SameReplies (str "uv") uvPublished (uvPublished.flushPolicy (steady appended) 0).1 ∧
      SameReplies (str "uv") uvPublished (uvPublished.flushFreshUserPolicy (steady fun _ => [])
        (answering true (uidResult [str "u", str "uv"])) (answering true (uidResult []))
        0 (fun _ => 2) 0).1 := by
  intro appended
  obtain ⟨text, rows, -⟩ :=
    replies_isolated uvPublished (show str "uv" ≠ str "u" by decide)
  have u : Field (str "u") := ⟨by decide, by decide, by decide⟩
  have b : Field (str "b") := ⟨by decide, by decide, by decide⟩
  have appends : Appends uvListed appended (fullPath uvPublished.whitePrefix (str "t"))
      (entryOf (str "u") (str "b")) := appendAt_appends uvListed _ _
  have freshCurrent : uvPublished.FreshCurrent (uidRows [str "uv"]) (str "uv") :=
    iff_of_true ⟨_, rfl, by decide⟩ (by decide)
  have pushCurrent : uvPublished.PushCurrent [] (str "uv") := rfl
  refine ⟨text 0 (steady_holds appended) u b appends (fun _ => rfl) rfl,
    rows _ 0 (steady_holds fun _ => []) (fun records h => ?_) (fun records h => ?_) freshCurrent
      pushCurrent⟩
  · rw [delivers_uidResult h]
    rfl
  · rw [delivers_uidResult h]
    rfl

/-- What is published about `u`, a new user and an active one, is no longer in the tables. -/
def stale : ABDyeingHandler :=
  { blank [str "t"] with
    onlinePlugin := some ((((DyeingOnlinePlugin.new (str "/o")).loadText (str "t")
      (str "app_fresh|p:0:a,0,999")).2.loadText (str "biz") (str "noticias_active|p:0:b,0,999")).2)
    freshUser := some ⟨str "/f", (∅ : UnorderedMap Bytes UInt64).insert (str "u") 1⟩
    pushUser := some ⟨str "/f",
      (∅ : UnorderedMap Bytes UserType).insert (noticiasKey (str "u")) ⟨1, str "active"⟩⟩
    logics := fun _ => some ⟨str "fresh"⟩ }

def uListed (path : Bytes) : Bytes := if path = str "/w/t/value" then str "u=c" else []

def activeV : PushRow :=
  ⟨str "v", str "9", str "active", by decide, List.all_eq_true.mp rfl, by decide⟩

theorem not_sameReplies {handler after : ABDyeingHandler} {uid : Bytes} (req : ABDyeingLanRequest)
    {r r' : ABDyeingReply}
    (h : dyeingLan (fun _ _ => 0) handler 0 (fun _ _ => none) .new uid req = .ok r)
    (h' : dyeingLan (fun _ _ => 0) after 0 (fun _ _ => none) .new uid req = .ok r')
    (hne : r' ≠ r) : ¬SameReplies uid handler after := by
  intro same
  have replies := (same (fun _ _ => 0) 0 (fun _ _ => none) .new).2 req
  rw [h, h'] at replies
  exact hne (Except.ok.inj replies)

/-- A refresh without records keeps `u`, and the first row for `v` takes him away; the reload for an
entry of `v` brings in an entry of `u` that had not been loaded yet. -/
theorem replies_not_isolated :
    let refreshed (uids : List Bytes) (pushRows : List PushRow) :=
      (stale.flushFreshUserPolicy (steady fun _ => []) (answering true (uidResult uids))
        (answering true (PushRow.resultSet pushRows)) 0 (fun _ => 2) 0).1
    let appended := appendAt uListed (str "/w/t/value") (entryOf (str "v") (str "d"))
    refreshed [] [] = stale ∧
      ¬SameReplies (str "u") stale (refreshed [str "v"] []) ∧
      ¬SameReplies (str "u") stale (refreshed [] [activeV]) ∧
      ¬SameReplies (str "u") stale (stale.flushPolicy (steady appended) 0).1 := by
  intro refreshed appended
  refine ⟨rfl, ?_, ?_, ?_⟩
  · exact not_sameReplies ⟨str "app", [], [], [str "t"]⟩ rfl rfl (by decide)
  · exact not_sameReplies ⟨str "noticias", [], [], [str "biz"]⟩ rfl rfl (by decide)
  · exact not_sameReplies ⟨str "app", [], [], [str "t"]⟩ rfl rfl (by decide)

end ABDyeingHandler

end ABDyeing
