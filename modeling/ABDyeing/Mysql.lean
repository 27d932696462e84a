import ABDyeing.Lib.UnorderedMap
import ABDyeing.QConfig

/-! `INV_Mysql`, as far as the two daily refreshes use it, over the answers of the MySQL client
library, and the refresh that both plugins make: connect, query, and set a map row by row.  Only the
query stands in a `try` block. -/

namespace ABDyeing

open Lib

/-- `INV_DBConf`, less the client flag, which is never set. -/
structure DBConf where
  host : Bytes
  user : Bytes
  password : Bytes
  database : Bytes
  charset : Bytes
  port : Int32

/-- What `mysql_store_result` delivers; `none` is a NULL. -/
structure ResultSet where
  fields : List Bytes
  rows : List (List (Option Bytes))
  shape : ∀ row ∈ rows, row.length = fields.length

/-- The answers of the client library to the `n`-th call that is made to it.  A failed query answers
with its error number. -/
structure MysqlClient where
  optionsFail : Nat → Bytes → Bool
  realConnect : Nat → DBConf → Bool
  realQuery : Nat → Bytes → Option Nat
  storeResult : Nat → Option ResultSet
  error : Nat → Bytes

abbrev Row := UnorderedMap Bytes Bytes

/-- The row that the loop of `queryRecord` builds. -/
def toRow (fields : List Bytes) (row : List (Option Bytes)) : Row :=
  assignAll (fields.zip (row.map fun value => value.getD [])) ∅

def Row.field (row : Row) (s : Bytes) : Outcome Exception Bytes :=
  match row.lookup s with
  | some value => .ok value
  | none => .error (.exception (.mysql (str "field '" ++ s ++ str "' not exists.")))

theorem Row.field_eq_ok {row : Row} {s value : Bytes} :
    row.field s = .ok value ↔ row.lookup s = some value := by
  unfold field
  cases row.lookup s <;> simp

structure InvMysql where
  dbConf : DBConf
  connected : Bool
  calls : Nat

namespace InvMysql

def init (dbConf : DBConf) : InvMysql := ⟨dbConf, false, 0⟩

def disconnect (db : InvMysql) : InvMysql := { db with connected := false }

def called (db : InvMysql) : InvMysql := { db with calls := db.calls + 1 }

def setCharset (client : MysqlClient) (db : InvMysql) : Outcome Exception InvMysql :=
  if db.dbConf.charset.isEmpty then .ok db
  else if client.optionsFail db.calls db.dbConf.charset then
    .error (.exception (.mysql (str "INV_Mysql::connect: mysql_options MYSQL_SET_CHARSET_NAME " ++
      db.dbConf.charset ++ str ":" ++ client.error db.calls)))
  else .ok db.called

def connect (client : MysqlClient) (db : InvMysql) : Outcome Exception InvMysql := do
  let db ← db.disconnect.setCharset client
  if client.realConnect db.calls db.dbConf then return { db.called with connected := true }
  else .error (.exception (.mysql
    (str "[INV_Mysql::connect]: mysql_real_connect: " ++ client.error db.calls)))

/-- `mysql_real_query`, once more after a reconnect where the server has gone away. -/
def realQuery (client : MysqlClient) (sSql : Bytes) (db : InvMysql) :
    Outcome Exception (Option Nat × InvMysql) :=
  match client.realQuery db.calls sSql with
  | none => .ok (none, db.called)
  | some iErrno =>
    if iErrno = 2013 ∨ iErrno = 2006 then do
      let db ← db.called.connect client
      return (client.realQuery db.calls sSql, db.called)
    else .ok (some iErrno, db.called)

def ensureConnected (client : MysqlClient) (db : InvMysql) : Outcome Exception InvMysql :=
  if db.connected then .ok db else db.connect client

def storeResult (client : MysqlClient) (sSql : Bytes) (iRet : Option Nat) (db : InvMysql) :
    Outcome Exception (List Row) :=
  if iRet.isSome then
    .error (.exception (.mysql (str "[INV_Mysql::execute]: mysql_query: [ " ++ sSql ++ str " ] :" ++
      client.error db.calls)))
  else
    match client.storeResult db.calls with
    | none => .error (.exception (.mysql (str "[INV_Mysql::queryRecord]: mysql_store_result: " ++
        sSql ++ str " : " ++ client.error db.calls)))
    | some pstRes => .ok (pstRes.rows.map (toRow pstRes.fields))

def queryRecord (client : MysqlClient) (sSql : Bytes) (db : InvMysql) :
    Outcome Exception (List Row) := do
  let db ← db.ensureConnected client
  let result ← db.realQuery client sSql
  result.2.storeResult client sSql result.1

end InvMysql

def readDBConf (store : Store) (pathPrefix : Bytes) : Load DBConf := do
  let host ← qconfGet store (pathPrefix ++ str "/ch_host") []
  let port ← qconfGet store (pathPrefix ++ str "/ch_port") []
  let user ← qconfGet store (pathPrefix ++ str "/ch_user") []
  let pass ← qconfGet store (pathPrefix ++ str "/ch_pass") []
  let db ← qconfGet store (pathPrefix ++ str "/ch_db") []
  let charset ← qconfGet store (pathPrefix ++ str "/ch_charset") []
  return ⟨host, user, pass, db, charset, atoi port⟩

/-- The `try` block of a refresh; `none` is its early return. -/
def queryOrReturn (client : MysqlClient) (sql : Bytes) (db : InvMysql) :
    Outcome Exception (Option (List Row)) :=
  catching (do
      let records ← db.queryRecord client sql
      return if records.isEmpty then none else some records)
    fun
      | .mysql _ => .ok none
      | e => .error (.exception e)

section Refresh

variable {α : Type}

/-- The loop over the records; `setRow` is given the number of the record. -/
def setRows (setRow : Nat → Row → α → Outcome Exception (Bool × α)) :
    Nat → List Row → Bool → α → Outcome Exception (Bool × α)
  | _, [], ret, plugin => .ok (ret, plugin)
  | i, row :: rows, _, plugin => do
    let (ret, plugin) ← setRow i row plugin
    setRows setRow (i + 1) rows ret plugin

/-- The refresh of a plugin: `cleared` is the plugin with its map cleared. -/
def refresh (store : Store) (client : MysqlClient) (pathPrefix sql : Bytes)
    (setRow : Nat → Row → α → Outcome Exception (Bool × α)) (plugin cleared : α) :
    Load (Bool × α) := fun n => do
  let (dbConf, n) ← readDBConf store pathPrefix n
  let db ← (InvMysql.init dbConf).connect client
  match ← queryOrReturn client sql db with
  | none => return ((false, plugin), n)
  | some records => return (← setRows setRow 0 records false cleared, n)

end Refresh

def ThrowsMysql {α : Type} (x : Outcome Exception α) : Prop :=
  ∀ e, x = .error e → ∃ m, e = .exception (.mysql m)

section Throws

variable {α β : Type}

theorem throwsMysql_ok (a : α) : ThrowsMysql (.ok a) := fun _ h => by cases h

theorem throwsMysql_error (m : Bytes) :
    ThrowsMysql (.error (.exception (.mysql m)) : Outcome Exception α) := by
  intro e h
  cases h
  exact ⟨m, rfl⟩

theorem ThrowsMysql.bind {x : Outcome Exception α} {f : α → Outcome Exception β}
    (hx : ThrowsMysql x) (hf : ∀ a, ThrowsMysql (f a)) : ThrowsMysql (x >>= f) := by
  intro e h
  cases x with
  | error e' =>
    obtain rfl : e' = e := Except.error.inj h
    exact hx e' rfl
  | ok a => exact hf a e h

end Throws

theorem Row.field_throws (row : Row) (s : Bytes) : ThrowsMysql (row.field s) := by
  unfold field
  split
  · exact throwsMysql_ok _
  · exact throwsMysql_error _

namespace InvMysql

variable (client : MysqlClient) (sSql : Bytes)

theorem connect_throws (db : InvMysql) : ThrowsMysql (db.connect client) := by
  refine ThrowsMysql.bind ?_ fun db => ?_
  · unfold setCharset
    split
    · exact throwsMysql_ok _
    · split
      · exact throwsMysql_error _
      · exact throwsMysql_ok _
  · split
    · exact throwsMysql_ok _
    · exact throwsMysql_error _

theorem realQuery_throws (db : InvMysql) : ThrowsMysql (db.realQuery client sSql) := by
  unfold realQuery
  split
  · exact throwsMysql_ok _
  · split
    · exact (connect_throws client _).bind fun _ => throwsMysql_ok _
    · exact throwsMysql_ok _

theorem ensureConnected_throws (db : InvMysql) : ThrowsMysql (db.ensureConnected client) := by
  unfold ensureConnected
  split
  · exact throwsMysql_ok _
  · exact connect_throws client _

theorem storeResult_throws (iRet : Option Nat) (db : InvMysql) :
    ThrowsMysql (db.storeResult client sSql iRet) := by
  unfold storeResult
  split
  · exact throwsMysql_error _
  · split
    · exact throwsMysql_error _
    · exact throwsMysql_ok _

theorem queryRecord_throws (db : InvMysql) : ThrowsMysql (db.queryRecord client sSql) :=
  (ensureConnected_throws client db).bind fun db =>
    (realQuery_throws client sSql db).bind fun result =>
      storeResult_throws client sSql result.1 result.2

end InvMysql

def HasColumns (columns : List Bytes) (row : Row) : Prop := ∀ c ∈ columns, c ∈ row

instance (columns : List Bytes) (row : Row) : Decidable (HasColumns columns row) :=
  inferInstanceAs (Decidable (∀ c ∈ columns, c ∈ row))

/-- `setRow` makes the update where the row has the columns, and throws where it lacks one. -/
structure SetsRow {α : Type} (columns : List Bytes) (update : Nat → Row → α → α)
    (setRow : Nat → Row → α → Outcome Exception (Bool × α)) : Prop where
  sets : ∀ i row plugin, HasColumns columns row →
    setRow i row plugin = .ok (true, update i row plugin)
  lacks : ∀ i row plugin result, setRow i row plugin = .ok result → HasColumns columns row
  throws : ∀ i row plugin, ThrowsMysql (setRow i row plugin)

def updateRows {α : Type} (update : Nat → Row → α → α) : Nat → List Row → α → α
  | _, [], plugin => plugin
  | i, row :: rows, plugin => updateRows update (i + 1) rows (update i row plugin)

def Connects (client : MysqlClient) (dbConf : DBConf) : Prop :=
  ∃ db, (InvMysql.init dbConf).connect client = .ok db

def Delivers (client : MysqlClient) (dbConf : DBConf) (sql : Bytes) (records : List Row) : Prop :=
  ∃ db, (InvMysql.init dbConf).connect client = .ok db ∧ db.queryRecord client sql = .ok records

theorem Delivers.unique {client : MysqlClient} {dbConf : DBConf} {sql : Bytes}
    {records others : List Row} (h : Delivers client dbConf sql records)
    (h' : Delivers client dbConf sql others) : records = others := by
  obtain ⟨db, hdb, hrecords⟩ := h
  obtain ⟨db', hdb', hothers⟩ := h'
  obtain rfl := Except.ok.inj (hdb.symm.trans hdb')
  exact Except.ok.inj (hrecords.symm.trans hothers)

/-- The connection is made, and no record that comes lacks a column. -/
def Harmless (client : MysqlClient) (dbConf : DBConf) (sql : Bytes) (columns : List Bytes) : Prop :=
  Connects client dbConf ∧
    ∀ records, Delivers client dbConf sql records → ∀ row ∈ records, HasColumns columns row

theorem delivers_iff {client : MysqlClient} {dbConf : DBConf} {sql : Bytes} {db : InvMysql}
    (hconnect : (InvMysql.init dbConf).connect client = .ok db) {records : List Row} :
    Delivers client dbConf sql records ↔ db.queryRecord client sql = .ok records := by
  constructor
  · intro ⟨db', hdb', hrecords⟩
    obtain rfl := Except.ok.inj (hconnect.symm.trans hdb')
    exact hrecords
  · exact fun h => ⟨db, hconnect, h⟩

/-- There are records for a plugin to publish: the complete result of the query. -/
def Refreshes (client : MysqlClient) (dbConf : DBConf) (sql : Bytes) (columns : List Bytes)
    (records : List Row) : Prop :=
  Delivers client dbConf sql records ∧ records ≠ [] ∧ ∀ row ∈ records, HasColumns columns row

def storedDBConf (node : Bytes → Bytes) (pathPrefix : Bytes) : DBConf :=
  ⟨node (pathPrefix ++ str "/ch_host"), node (pathPrefix ++ str "/ch_user"),
    node (pathPrefix ++ str "/ch_pass"), node (pathPrefix ++ str "/ch_db"),
    node (pathPrefix ++ str "/ch_charset"), atoi (node (pathPrefix ++ str "/ch_port"))⟩

theorem readDBConf_of_holds {store : Store} {node : Bytes → Bytes} (holds : store.Holds node)
    (pathPrefix : Bytes) (n : Nat) :
    readDBConf store pathPrefix n = .ok (storedDBConf node pathPrefix, n + 6) := by
  have read : ∀ n path, qconfGet store path [] n = .ok (node path, n + 1) := holds
  simp only [readDBConf, bind, StateT.bind, read, Except.bind]
  rfl

/-- The `try` block lets no exception out: it goes on with the records of the query, or returns
where the query fails or is empty. -/
theorem queryOrReturn_cases (client : MysqlClient) (sql : Bytes) (db : InvMysql) :
    (queryOrReturn client sql db = .ok none ∧
      ¬∃ records, db.queryRecord client sql = .ok records ∧ records ≠ []) ∨
    ∃ records, db.queryRecord client sql = .ok records ∧ records ≠ [] ∧
      queryOrReturn client sql db = .ok (some records) := by
  unfold queryOrReturn
  cases hquery : db.queryRecord client sql with
  | error e =>
    obtain ⟨m, rfl⟩ := InvMysql.queryRecord_throws client sql db e hquery
    refine .inl ⟨rfl, fun ⟨records, h, _⟩ => ?_⟩
    cases h
  | ok records =>
    by_cases hempty : records = []
    · subst hempty
      refine .inl ⟨rfl, fun ⟨records, h, hne⟩ => ?_⟩
      exact hne (Except.ok.inj h).symm
    · refine .inr ⟨records, rfl, hempty, ?_⟩
      simp only [bind, Except.bind, pure, Except.pure, catching, List.isEmpty_iff, if_neg hempty]

section Refresh

variable {α : Type} {columns : List Bytes} {update : Nat → Row → α → α}
  {setRow : Nat → Row → α → Outcome Exception (Bool × α)} (setsRow : SetsRow columns update setRow)

include setsRow

theorem setRows_of_columns {rows : List Row} (h : ∀ row ∈ rows, HasColumns columns row) (i : Nat)
    (ret : Bool) (plugin : α) :
    setRows setRow i rows ret plugin =
      .ok (ret || !rows.isEmpty, updateRows update i rows plugin) := by
  induction rows generalizing i ret plugin with
  | nil => simp [setRows, updateRows]
  | cons row rows ih =>
    obtain ⟨hrow, hrows⟩ := List.forall_mem_cons.mp h
    simp only [setRows, setsRow.sets i row plugin hrow, bind, Except.bind, ih hrows, updateRows]
    simp

theorem setRows_of_lack {rows : List Row} (h : ¬∀ row ∈ rows, HasColumns columns row) (i : Nat)
    (ret : Bool) (plugin : α) :
    ∃ m, setRows setRow i rows ret plugin = .error (.exception (.mysql m)) := by
  induction rows generalizing i ret plugin with
  | nil => simp at h
  | cons row rows ih =>
    by_cases hrow : HasColumns columns row
    · obtain ⟨m, hm⟩ := ih (fun hrows => h (List.forall_mem_cons.mpr ⟨hrow, hrows⟩)) (i + 1) true
        (update i row plugin)
      exact ⟨m, by simp only [setRows, setsRow.sets i row plugin hrow, bind, Except.bind, hm]⟩
    · cases hset : setRow i row plugin with
      | error e =>
        obtain ⟨m, rfl⟩ := setsRow.throws i row plugin e hset
        exact ⟨m, by simp only [setRows, hset, bind, Except.bind]⟩
      | ok result => exact absurd (setsRow.lacks i row plugin result hset) hrow

/-- The ways a refresh can end: it throws where the connection fails or a record lacks a column, it
keeps the plugin where no records come, and else it makes the updates of all records. -/
theorem refresh_cases {store : Store} {node : Bytes → Bytes} (holds : store.Holds node)
    (client : MysqlClient) (pathPrefix sql : Bytes) (plugin cleared : α) (n : Nat) :
    let dbConf := storedDBConf node pathPrefix
    let result := refresh store client pathPrefix sql setRow plugin cleared n
    (¬Connects client dbConf ∧ ∃ m, result = .error (.exception (.mysql m))) ∨
    (Connects client dbConf ∧ (¬∃ records, Delivers client dbConf sql records ∧ records ≠ []) ∧
      result = .ok ((false, plugin), n + 6)) ∨
    ∃ records, Delivers client dbConf sql records ∧ records ≠ [] ∧
      (((∀ row ∈ records, HasColumns columns row) ∧
        result = .ok ((true, updateRows update 0 records cleared), n + 6)) ∨
      ((¬∀ row ∈ records, HasColumns columns row) ∧
        ∃ m, result = .error (.exception (.mysql m)))) := by
  intro dbConf result
  have hresult : result = (do
      let db ← (InvMysql.init dbConf).connect client
      match ← queryOrReturn client sql db with
      | none => return ((false, plugin), n + 6)
      | some records => return (← setRows setRow 0 records false cleared, n + 6)) := by
    simp only [result, refresh, readDBConf_of_holds holds, bind, Except.bind, dbConf]
  cases hconnect : (InvMysql.init dbConf).connect client with
  | error e =>
    obtain ⟨m, rfl⟩ := InvMysql.connect_throws client _ e hconnect
    refine .inl ⟨fun ⟨db, hdb⟩ => ?_, m, by rw [hresult, hconnect]; rfl⟩
    rw [hconnect] at hdb
    cases hdb
  | ok db =>
    refine .inr ?_
    rw [hconnect] at hresult
    simp only [delivers_iff hconnect]
    rcases queryOrReturn_cases client sql db with
      ⟨hreturn, hnone⟩ | ⟨records, hquery, hne, hrecords⟩
    · exact .inl ⟨⟨db, hconnect⟩, hnone, by simp only [hresult, bind, Except.bind, hreturn]; rfl⟩
    · refine .inr ⟨records, hquery, hne, ?_⟩
      by_cases hcolumns : ∀ row ∈ records, HasColumns columns row
      · refine .inl ⟨hcolumns, ?_⟩
        have hnonempty : records.isEmpty = false := by simpa using hne
        simp only [hresult, bind, Except.bind, hrecords, setRows_of_columns setsRow hcolumns, pure,
          Except.pure, hnonempty, Bool.not_false, Bool.or_true]
      · obtain ⟨m, hm⟩ := setRows_of_lack setsRow hcolumns 0 false cleared
        exact .inr ⟨hcolumns, m, by simp only [hresult, bind, Except.bind, hrecords, hm]⟩

theorem refresh_of_refreshes {store : Store} {node : Bytes → Bytes} (holds : store.Holds node)
    {client : MysqlClient} {pathPrefix sql : Bytes} {records : List Row}
    (h : Refreshes client (storedDBConf node pathPrefix) sql columns records) (plugin cleared : α)
    (n : Nat) :
    refresh store client pathPrefix sql setRow plugin cleared n =
      .ok ((true, updateRows update 0 records cleared), n + 6) := by
  obtain ⟨hdelivers, hne, hcolumns⟩ := h
  rcases refresh_cases setsRow holds client pathPrefix sql plugin cleared n with
    ⟨hconnect, -⟩ | ⟨-, hnone, -⟩ | ⟨others, hothers, -, hresult⟩
  · exact absurd ⟨_, hdelivers.choose_spec.1⟩ hconnect
  · exact absurd ⟨records, hdelivers, hne⟩ hnone
  · obtain rfl := hothers.unique hdelivers
    exact (hresult.resolve_right fun h => h.1 hcolumns).2

theorem refresh_of_harmless {store : Store} {node : Bytes → Bytes} (holds : store.Holds node)
    {client : MysqlClient} {pathPrefix sql : Bytes}
    (h : Harmless client (storedDBConf node pathPrefix) sql columns) (plugin cleared : α)
    (n : Nat) :
    (¬∃ records, Refreshes client (storedDBConf node pathPrefix) sql columns records) ∧
        refresh store client pathPrefix sql setRow plugin cleared n =
          .ok ((false, plugin), n + 6) ∨
      ∃ records, Refreshes client (storedDBConf node pathPrefix) sql columns records ∧
        refresh store client pathPrefix sql setRow plugin cleared n =
          .ok ((true, updateRows update 0 records cleared), n + 6) := by
  rcases refresh_cases setsRow holds client pathPrefix sql plugin cleared n with
    ⟨hconnect, -⟩ | ⟨-, hnone, hresult⟩ |
      ⟨records, hdelivers, hne, ⟨hcolumns, hresult⟩ | ⟨hlack, -⟩⟩
  · exact absurd h.1 hconnect
  · refine .inl ⟨fun ⟨records, hrecords⟩ => ?_, hresult⟩
    exact hnone ⟨records, hrecords.1, hrecords.2.1⟩
  · exact .inr ⟨records, ⟨hdelivers, hne, hcolumns⟩, hresult⟩
  · exact absurd (h.2 records hdelivers) hlack

theorem refresh_of_not_harmless {store : Store} {node : Bytes → Bytes} (holds : store.Holds node)
    {client : MysqlClient} {pathPrefix sql : Bytes}
    (h : ¬Harmless client (storedDBConf node pathPrefix) sql columns) (plugin cleared : α)
    (n : Nat) :
    ∃ m, refresh store client pathPrefix sql setRow plugin cleared n =
      .error (.exception (.mysql m)) := by
  rcases refresh_cases setsRow holds client pathPrefix sql plugin cleared n with
    ⟨-, herror⟩ | ⟨hconnect, hnone, -⟩ | ⟨records, hdelivers, hne, ⟨hcolumns, -⟩ | ⟨-, herror⟩⟩
  · exact herror
  · refine absurd ⟨hconnect, fun records hrecords => ?_⟩ h
    obtain rfl : records = [] := by
      by_contra hne
      exact hnone ⟨records, hrecords, hne⟩
    simp
  · exact absurd ⟨⟨_, hdelivers.choose_spec.1⟩, fun others hothers =>
      hdelivers.unique hothers ▸ hcolumns⟩ h
  · exact herror

end Refresh

end ABDyeing
