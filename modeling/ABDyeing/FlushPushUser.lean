import ABDyeing.FlushFreshUser

/-! `flushPushUserType` over the rows of its query.  Every row is for the product `noticias`, so the
keys tell the users apart, and each user is left with the type of the first of his rows with the
greatest timestamp. -/

namespace ABDyeing

open Lib

/-- A row of `t_daily_push_user_type` for the product `noticias`; the timestamp is a numeral. -/
structure PushRow where
  uid : Bytes
  timestampText : Bytes
  userType : Bytes
  nonempty : timestampText ≠ []
  digits : ∀ c ∈ timestampText, isDigit c = true
  bound : digitsValue timestampText < 2 ^ 63

namespace PushRow

def timestamp (row : PushRow) : Nat := digitsValue row.timestampText

def fields : List Bytes := [str "Timestamp", str "product_id", str "uid", str "push_user_type"]

def values (row : PushRow) : List (Option Bytes) :=
  [some row.timestampText, some (str "noticias"), some row.uid, some row.userType]

/-- The row as `queryRecord` delivers it. -/
def record (row : PushRow) : Row := toRow fields row.values

def resultSet (rows : List PushRow) : ResultSet :=
  ⟨fields, rows.map values, by simp [fields, values]⟩

/-- Among the rows of its uid, `row` is the first one with the greatest timestamp. -/
def IsLatest (rows : List PushRow) (row : PushRow) : Prop :=
  ∃ before after, rows = before ++ row :: after ∧
    (∀ r ∈ before, r.uid = row.uid → r.timestamp < row.timestamp) ∧
    (∀ r ∈ after, r.uid = row.uid → r.timestamp ≤ row.timestamp)

end PushRow

def noticiasKey (uid : Bytes) : Bytes := str "noticias" ++ uid

namespace DyeingPushUserTypePlugin

/-- `get` for the app `noticias` knows the uids of these rows, and gives each its latest type. -/
structure Answers (plugin : DyeingPushUserTypePlugin) (rows : List PushRow) : Prop where
  known : ∀ uid, (plugin.get uid (str "noticias")).isSome ↔ ∃ row ∈ rows, row.uid = uid
  latest : ∀ uid userType, plugin.get uid (str "noticias") = some userType ↔
    ∃ row : PushRow, row.IsLatest rows ∧ row.uid = uid ∧ row.userType = userType

end DyeingPushUserTypePlugin

namespace PushRow

theorem record_lookup (row : PushRow) :
    row.record.lookup (str "Timestamp") = some row.timestampText ∧
      row.record.lookup (str "product_id") = some (str "noticias") ∧
      row.record.lookup (str "uid") = some row.uid ∧
      row.record.lookup (str "push_user_type") = some row.userType := by
  simp only [record, toRow, lookup_assignAll]
  exact ⟨rfl, rfl, rfl, rfl⟩

theorem hasColumns_record (row : PushRow) :
    HasColumns DyeingPushUserTypePlugin.columns row.record := by
  obtain ⟨htime, hproduct, huid, htype⟩ := row.record_lookup
  intro c hc
  simp only [DyeingPushUserTypePlugin.columns, List.mem_cons, List.not_mem_nil, or_false] at hc
  rcases hc with rfl | rfl | rfl | rfl
  · exact Finmap.mem_of_lookup_eq_some huid
  · exact Finmap.mem_of_lookup_eq_some hproduct
  · exact Finmap.mem_of_lookup_eq_some htype
  · exact Finmap.mem_of_lookup_eq_some htime

theorem userKey_record (row : PushRow) : row.record.userKey = noticiasKey row.uid := by
  obtain ⟨-, hproduct, huid, -⟩ := row.record_lookup
  simp only [Row.userKey, Row.get, hproduct, huid, Option.getD_some, noticiasKey]

theorem userType_record (row : PushRow) :
    row.record.userType = ⟨(atol row.timestampText).toUInt64, row.userType⟩ := by
  obtain ⟨htime, -, -, htype⟩ := row.record_lookup
  simp only [Row.userType, Row.get, htime, htype, Option.getD_some]

theorem timestamp_record (row : PushRow) :
    row.record.userType.timestamp.toNat = row.timestamp := by
  rw [userType_record]
  exact atol_digits row.nonempty row.digits row.bound

theorem noticiasKey_inj {uid v : Bytes} : noticiasKey uid = noticiasKey v ↔ uid = v :=
  List.append_right_inj _

theorem IsLatest.mem {rows : List PushRow} {row : PushRow} (h : row.IsLatest rows) :
    row ∈ rows := by
  obtain ⟨before, after, rfl, -⟩ := h
  simp

/-- A row that is listed before another one of its uid is not latest together with it. -/
theorem not_both_latest {before between after : List PushRow} {a b : PushRow} (same : a.uid = b.uid)
    (ha : ∀ r ∈ between ++ b :: after, r.uid = a.uid → r.timestamp ≤ a.timestamp)
    (hb : ∀ r ∈ before ++ a :: between, r.uid = b.uid → r.timestamp < b.timestamp) : False := by
  have hle := ha b (by simp) same.symm
  have hlt := hb a (by simp) same
  omega

theorem IsLatest.unique {rows : List PushRow} {a b : PushRow} (ha : a.IsLatest rows)
    (hb : b.IsLatest rows) (same : a.uid = b.uid) : a = b := by
  obtain ⟨before, after, hrows, hbefore, hafter⟩ := ha
  obtain ⟨before', after', hrows', hbefore', hafter'⟩ := hb
  rcases List.append_eq_append_iff.mp (hrows.symm.trans hrows') with
    ⟨between, rfl, hrest⟩ | ⟨between, rfl, hrest⟩
  · cases between with
    | nil => exact (List.cons.inj hrest).1
    | cons r between =>
      obtain ⟨rfl, rfl⟩ := List.cons.inj hrest
      exact (not_both_latest same hafter hbefore').elim
  · cases between with
    | nil => exact (List.cons.inj hrest).1.symm
    | cons r between =>
      obtain ⟨rfl, rfl⟩ := List.cons.inj hrest
      exact (not_both_latest same.symm hafter' hbefore).elim

def Distinct (rows : List PushRow) : Prop :=
  rows.Pairwise fun a b => a.uid = b.uid → a.timestamp ≠ b.timestamp

theorem IsLatest.timestamp_le {rows : List PushRow} {row : PushRow} (h : row.IsLatest rows) :
    ∀ r ∈ rows, r.uid = row.uid → r.timestamp ≤ row.timestamp := by
  obtain ⟨before, after, rfl, hbefore, hafter⟩ := h
  intro r hr huid
  rcases List.mem_append.mp hr with hr | hr
  · exact (hbefore r hr huid).le
  · rcases List.mem_cons.mp hr with rfl | hr
    · exact le_rfl
    · exact hafter r hr huid

theorem IsLatest.perm {rows rows' : List PushRow} {row : PushRow} (h : row.IsLatest rows)
    (perm : rows'.Perm rows) (distinct : Distinct rows) : row.IsLatest rows' := by
  have distinct' : Distinct rows' :=
    (perm.pairwise_iff fun hab huid htime => hab huid.symm htime.symm).mpr distinct
  have greatest (r : PushRow) (hr : r ∈ rows') (huid : r.uid = row.uid) :
      r.timestamp ≤ row.timestamp := h.timestamp_le r (perm.mem_iff.mp hr) huid
  obtain ⟨before, after, rfl⟩ := List.append_of_mem (perm.mem_iff.mpr h.mem)
  refine ⟨before, after, rfl, fun r hr huid => ?_, fun r hr huid => greatest r (by simp [hr]) huid⟩
  have hne := (List.pairwise_append.mp distinct').2.2 r hr row (by simp) huid
  exact lt_of_le_of_ne (greatest r (by simp [hr]) huid) hne

theorem timestamp_lt_iff (a b : PushRow) :
    a.record.userType.timestamp < b.record.userType.timestamp ↔ a.timestamp < b.timestamp := by
  rw [UInt64.lt_iff_toNat_lt, timestamp_record, timestamp_record]

theorem timestamp_le_iff (a b : PushRow) :
    a.record.userType.timestamp ≤ b.record.userType.timestamp ↔ a.timestamp ≤ b.timestamp := by
  rw [UInt64.le_iff_toNat_le, timestamp_record, timestamp_record]

/-- What is latest among the records is what is latest among the rows. -/
theorem latest_iff {rows : List PushRow} {uid : Bytes} {entry : UserType} :
    Latest (rows.map record) (noticiasKey uid) entry ↔
      ∃ row : PushRow, row.IsLatest rows ∧ row.uid = uid ∧ row.record.userType = entry := by
  constructor
  · intro ⟨before, record', after, hrows, hkey, hentry, hbefore, hafter⟩
    obtain ⟨before, rest, rfl, rfl, hrest⟩ := List.map_eq_append_iff.mp hrows
    obtain ⟨row, after, rfl, rfl, rfl⟩ := List.map_eq_cons_iff.mp hrest
    rw [userKey_record, noticiasKey_inj] at hkey
    subst hkey hentry
    simp only [List.forall_mem_map, userKey_record, noticiasKey_inj, timestamp_lt_iff] at hbefore
    simp only [List.forall_mem_map, userKey_record, noticiasKey_inj, timestamp_le_iff] at hafter
    exact ⟨row, ⟨before, after, rfl, hbefore, hafter⟩, rfl, rfl⟩
  · intro ⟨row, ⟨before, after, hrows, hbefore, hafter⟩, huid, hentry⟩
    subst hrows huid hentry
    refine ⟨before.map record, row.record, after.map record, by simp, userKey_record row, rfl,
      ?_, ?_⟩
    · simpa only [List.forall_mem_map, userKey_record, noticiasKey_inj, timestamp_lt_iff]
    · simpa only [List.forall_mem_map, userKey_record, noticiasKey_inj, timestamp_le_iff]

end PushRow

namespace DyeingPushUserTypePlugin

variable {plugin : DyeingPushUserTypePlugin} {rows : List PushRow}

theorem lookup_eq_none (holds : plugin.Holds (rows.map PushRow.record)) {uid : Bytes} :
    plugin.userTypeMap.lookup (noticiasKey uid) = none ↔ ∀ row ∈ rows, row.uid ≠ uid := by
  rw [(holds (noticiasKey uid)).1]
  simp only [List.forall_mem_map, PushRow.userKey_record, ne_eq, PushRow.noticiasKey_inj]

theorem latest_of_lookup (holds : plugin.Holds (rows.map PushRow.record)) {uid : Bytes}
    {entry : UserType} (h : plugin.userTypeMap.lookup (noticiasKey uid) = some entry) :
    ∃ row : PushRow, row.IsLatest rows ∧ row.uid = uid ∧ row.record.userType = entry :=
  PushRow.latest_iff.mp ((holds (noticiasKey uid)).2 entry h)

theorem lookup_of_latest (holds : plugin.Holds (rows.map PushRow.record)) {row : PushRow}
    (h : row.IsLatest rows) :
    plugin.userTypeMap.lookup (noticiasKey row.uid) = some row.record.userType := by
  cases hlookup : plugin.userTypeMap.lookup (noticiasKey row.uid) with
  | none => exact absurd rfl ((lookup_eq_none holds).mp hlookup row h.mem)
  | some entry =>
    obtain ⟨other, hother, huid, rfl⟩ := latest_of_lookup holds hlookup
    rw [hother.unique h huid]

theorem answers_of_holds (holds : plugin.Holds (rows.map PushRow.record)) :
    plugin.Answers rows where
  known uid := by
    have hnone : plugin.userTypeMap.lookup (noticiasKey uid) = none ↔ _ := lookup_eq_none holds
    rw [get, Option.isSome_map, ← Option.ne_none_iff_isSome]
    simpa [noticiasKey] using not_congr hnone
  latest uid userType := by
    rw [get, Option.map_eq_some_iff]
    constructor
    · intro ⟨entry, hlookup, htype⟩
      obtain ⟨row, hrow, huid, hentry⟩ := latest_of_lookup holds hlookup
      rw [PushRow.userType_record] at hentry
      exact ⟨row, hrow, huid, by rw [← htype, ← hentry]⟩
    · intro ⟨row, hrow, huid, htype⟩
      subst huid
      exact ⟨_, lookup_of_latest holds hrow, by rw [PushRow.userType_record, htype]⟩

/-- Where the timestamps tell the rows of a uid apart, the plugin does not depend on their order. -/
theorem eq_of_perm {other : DyeingPushUserTypePlugin} {rows' : List PushRow}
    (samePrefix : other.pathPrefix = plugin.pathPrefix) (perm : rows'.Perm rows)
    (distinct : PushRow.Distinct rows) (holds : plugin.Holds (rows.map PushRow.record))
    (holds' : other.Holds (rows'.map PushRow.record)) : other = plugin := by
  have same (key : Bytes) : other.userTypeMap.lookup key = plugin.userTypeMap.lookup key := by
    cases hlookup : plugin.userTypeMap.lookup key with
    | none =>
      refine (holds' key).1.mpr fun record hrecord => ?_
      exact (holds key).1.mp hlookup record ((perm.map _).mem_iff.mp hrecord)
    | some entry =>
      obtain ⟨uid, rfl⟩ : ∃ uid, key = noticiasKey uid := by
        obtain ⟨before, record, after, hrows, hkey, -⟩ := (holds key).2 entry hlookup
        obtain ⟨row, -, rfl⟩ := List.mem_map.mp
          (hrows ▸ List.mem_append_right before List.mem_cons_self)
        exact ⟨row.uid, by rw [← hkey, PushRow.userKey_record]⟩
      obtain ⟨row, hrow, rfl, rfl⟩ := latest_of_lookup holds hlookup
      exact lookup_of_latest holds' (hrow.perm perm distinct)
  obtain ⟨pathPrefix, userTypeMap⟩ := plugin
  obtain ⟨pathPrefix', userTypeMap'⟩ := other
  obtain rfl : pathPrefix' = pathPrefix := samePrefix
  obtain rfl : userTypeMap' = userTypeMap := Finmap.ext_lookup same
  rfl

variable {node : Bytes → Bytes} {store : Store} {client : MysqlClient} {pathPrefix : Bytes}

theorem flush_of_delivers (holds : store.Holds node) {rows : List PushRow} (nonempty : rows ≠ [])
    (delivers : Delivers client (storedDBConf node pathPrefix) sql (rows.map PushRow.record))
    (n : Nat) :
    ∃ plugin : DyeingPushUserTypePlugin, plugin.pathPrefix = pathPrefix ∧
      plugin.Holds (rows.map PushRow.record) ∧
      (new pathPrefix).flushPushUserType store client n = .ok ((true, plugin), n + 6) := by
  have hcolumns : ∀ row ∈ rows.map PushRow.record, HasColumns columns row := by
    rw [List.forall_mem_map]
    exact fun row _ => row.hasColumns_record
  have hrefreshes : Refreshes client (storedDBConf node pathPrefix) sql columns
      (rows.map PushRow.record) := ⟨delivers, by simpa using nonempty, hcolumns⟩
  exact ⟨_, updateRows_pathPrefix 0 _ _, holds_updateRows pathPrefix _,
    refresh_of_refreshes setsRow holds hrefreshes _ _ n⟩

/-- For every result of the query, in any order and with any repetitions, the refresh of a new
plugin succeeds and leaves each uid of the rows, and no other, with its latest type; where the
timestamps of a uid are distinct, any other order of the rows leaves the same plugin. -/
theorem flushPushUserType_answers (holds : store.Holds node) {rows : List PushRow}
    (nonempty : rows ≠ [])
    (delivers : Delivers client (storedDBConf node pathPrefix) sql (rows.map PushRow.record))
    (n : Nat) :
    ∃ plugin : DyeingPushUserTypePlugin,
      (new pathPrefix).flushPushUserType store client n = .ok ((true, plugin), n + 6) ∧
      plugin.Answers rows ∧
      ∀ rows' : List PushRow, rows'.Perm rows → PushRow.Distinct rows → ∀ client' : MysqlClient,
        Delivers client' (storedDBConf node pathPrefix) sql (rows'.map PushRow.record) →
        (new pathPrefix).flushPushUserType store client' n = .ok ((true, plugin), n + 6) := by
  obtain ⟨plugin, hprefix, hholds, hflush⟩ := flush_of_delivers holds nonempty delivers n
  refine ⟨plugin, hflush, answers_of_holds hholds, fun rows' perm distinct client' delivers' => ?_⟩
  have nonempty' : rows' ≠ [] := fun h => nonempty (List.nil_perm.mp (h ▸ perm))
  obtain ⟨plugin', hprefix', hholds', hflush'⟩ := flush_of_delivers holds nonempty' delivers' n
  rw [hflush', eq_of_perm (hprefix'.trans hprefix.symm) perm distinct hholds hholds']

def sampleRows : List PushRow :=
  [⟨str "u", str "7", str "active", by decide, List.all_eq_true.mp rfl, by decide⟩,
    ⟨str "v", str "3", str "idle", by decide, List.all_eq_true.mp rfl, by decide⟩,
    ⟨str "u", str "7", str "idle", by decide, List.all_eq_true.mp rfl, by decide⟩]

theorem flushPushUserType_answers_example :
    ∃ plugin : DyeingPushUserTypePlugin,
      (new (str "/f")).flushPushUserType (steady fun _ => [])
        (ABDyeingHandler.answering true (PushRow.resultSet sampleRows)) 0 =
          .ok ((true, plugin), 6) ∧
      plugin.Answers sampleRows := by
  have delivers : Delivers (ABDyeingHandler.answering true (PushRow.resultSet sampleRows))
      (storedDBConf (fun _ => []) (str "/f")) sql (sampleRows.map PushRow.record) := ⟨_, rfl, rfl⟩
  obtain ⟨plugin, hflush, hanswers, -⟩ := flushPushUserType_answers (steady_holds fun _ => [])
    (by simp [sampleRows]) delivers 0
  exact ⟨plugin, hflush, hanswers⟩

end DyeingPushUserTypePlugin

end ABDyeing
