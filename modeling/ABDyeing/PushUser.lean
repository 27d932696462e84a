import Mathlib.Data.List.Induction
import ABDyeing.Lib.OrderedMap
import ABDyeing.Mysql

/-! `DyeingPushUserTypePlugin`: the type of a user per product, of which the one with the greatest
timestamp counts, and the first one of these. -/

namespace ABDyeing

open Lib

structure UserType where
  timestamp : UInt64
  userType : Bytes
  deriving DecidableEq

/-- `pathPrefix` is the field `_prefix`; the keys are a product followed by a uid. -/
structure DyeingPushUserTypePlugin where
  pathPrefix : Bytes
  userTypeMap : UnorderedMap Bytes UserType

def setLatest (m : UnorderedMap Bytes UserType) (key : Bytes) (entry : UserType) :
    UnorderedMap Bytes UserType :=
  match m.lookup key with
  | none => m.insert key entry
  | some old => if old.timestamp < entry.timestamp then m.insert key entry else m

namespace DyeingPushUserTypePlugin

def new (pathPrefix : Bytes) : DyeingPushUserTypePlugin := ⟨pathPrefix, ∅⟩

/-- `get`; `none` is the result `false`. -/
def get (plugin : DyeingPushUserTypePlugin) (uid app : Bytes) : Option Bytes :=
  (plugin.userTypeMap.lookup (app ++ uid)).map UserType.userType

def setMap (uid productId : Bytes) (timestamp : UInt64) (userType : Bytes)
    (plugin : DyeingPushUserTypePlugin) : Bool × DyeingPushUserTypePlugin :=
  (true, { plugin with
    userTypeMap := setLatest plugin.userTypeMap (productId ++ uid) ⟨timestamp, userType⟩ })

def setRow (_ : Nat) (row : Row) (plugin : DyeingPushUserTypePlugin) :
    Outcome Exception (Bool × DyeingPushUserTypePlugin) := do
  let uid ← row.field (str "uid")
  let productId ← row.field (str "product_id")
  let userType ← row.field (str "push_user_type")
  let timestamp ← row.field (str "Timestamp")
  return plugin.setMap uid productId (atol timestamp).toUInt64 userType

def sql : Bytes :=
  str "select Timestamp, product_id, uid, push_user_type from t_daily_push_user_type where " ++
    str "product_id=\"noticias\";"

def flushPushUserType (store : Store) (client : MysqlClient) (plugin : DyeingPushUserTypePlugin) :
    Load (Bool × DyeingPushUserTypePlugin) :=
  refresh store client plugin.pathPrefix sql setRow plugin { plugin with userTypeMap := ∅ }

def columns : List Bytes := [str "uid", str "product_id", str "push_user_type", str "Timestamp"]

end DyeingPushUserTypePlugin

def Row.get (row : Row) (column : Bytes) : Bytes := (Finmap.lookup column row).getD []

def Row.userKey (row : Row) : Bytes := row.get (str "product_id") ++ row.get (str "uid")

def Row.userType (row : Row) : UserType :=
  ⟨(atol (row.get (str "Timestamp"))).toUInt64, row.get (str "push_user_type")⟩

def DyeingPushUserTypePlugin.update (_ : Nat) (row : Row) (plugin : DyeingPushUserTypePlugin) :
    DyeingPushUserTypePlugin :=
  { plugin with userTypeMap := setLatest plugin.userTypeMap row.userKey row.userType }

/-- Among the records with this key, `row` is the first one with the greatest timestamp. -/
def Latest (records : List Row) (key : Bytes) (entry : UserType) : Prop :=
  ∃ before row after, records = before ++ row :: after ∧ row.userKey = key ∧
    row.userType = entry ∧
    (∀ r ∈ before, r.userKey = key → r.userType.timestamp < entry.timestamp) ∧
    (∀ r ∈ after, r.userKey = key → r.userType.timestamp ≤ entry.timestamp)

theorem lookup_setLatest_of_ne {m : UnorderedMap Bytes UserType} {key k : Bytes}
    {entry : UserType} (h : k ≠ key) : (setLatest m key entry).lookup k = m.lookup k := by
  unfold setLatest
  split
  · rw [Finmap.lookup_insert_of_ne _ h]
  · split
    · rw [Finmap.lookup_insert_of_ne _ h]
    · rfl

theorem lookup_setLatest_congr {m m' : UnorderedMap Bytes UserType} {key : Bytes}
    (h : m.lookup key = m'.lookup key) (entry : UserType) :
    (setLatest m key entry).lookup key = (setLatest m' key entry).lookup key := by
  unfold setLatest
  rw [← h]
  cases hold : m.lookup key with
  | none => simp
  | some old =>
    by_cases hlt : old.timestamp < entry.timestamp
    · simp [hlt]
    · simp [hlt, hold, ← h]

theorem Latest.timestamp_le {records : List Row} {key : Bytes} {entry : UserType}
    (h : Latest records key entry) : ∀ r ∈ records, r.userKey = key →
      r.userType.timestamp ≤ entry.timestamp := by
  obtain ⟨before, row, after, rfl, _, rfl, hbefore, hafter⟩ := h
  intro r hr hkey
  rcases List.mem_append.mp hr with hr | hr
  · exact (hbefore r hr hkey).le
  · rcases List.mem_cons.mp hr with rfl | hr
    · exact le_rfl
    · exact hafter r hr hkey

theorem Latest.snoc {records : List Row} {key : Bytes} {entry : UserType} {row : Row}
    (h : Latest records key entry)
    (hrow : row.userKey = key → row.userType.timestamp ≤ entry.timestamp) :
    Latest (records ++ [row]) key entry := by
  obtain ⟨before, r, after, rfl, hkey, hentry, hbefore, hafter⟩ := h
  refine ⟨before, r, after ++ [row], by simp, hkey, hentry, hbefore, fun s hs hskey => ?_⟩
  rcases List.mem_append.mp hs with hs | hs
  · exact hafter s hs hskey
  · obtain rfl := List.mem_singleton.mp hs
    exact hrow hskey

namespace DyeingPushUserTypePlugin

theorem setsRow : SetsRow columns update setRow where
  sets i row plugin h := by
    have value (c : Bytes) (hc : c ∈ columns) : row.field c = .ok (row.get c) := by
      obtain ⟨v, hv⟩ := Finmap.mem_iff.mp (h c hc)
      rw [Row.field_eq_ok, Row.get, hv]
      rfl
    simp only [setRow, value (str "uid") (by decide), value (str "product_id") (by decide),
      value (str "push_user_type") (by decide), value (str "Timestamp") (by decide), bind,
      Except.bind, pure, Except.pure, setMap, update, Row.userKey, Row.userType]
  lacks i row plugin result h := by
    obtain ⟨uid, huid, h⟩ := bind_eq_ok.mp h
    obtain ⟨productId, hproduct, h⟩ := bind_eq_ok.mp h
    obtain ⟨userType, htype, h⟩ := bind_eq_ok.mp h
    obtain ⟨timestamp, htime, _⟩ := bind_eq_ok.mp h
    intro c hc
    simp only [columns, List.mem_cons, List.not_mem_nil, or_false] at hc
    rcases hc with rfl | rfl | rfl | rfl
    · exact Finmap.mem_of_lookup_eq_some (Row.field_eq_ok.mp huid)
    · exact Finmap.mem_of_lookup_eq_some (Row.field_eq_ok.mp hproduct)
    · exact Finmap.mem_of_lookup_eq_some (Row.field_eq_ok.mp htype)
    · exact Finmap.mem_of_lookup_eq_some (Row.field_eq_ok.mp htime)
  throws i row plugin :=
    (Row.field_throws row _).bind fun _ => (Row.field_throws row _).bind fun _ =>
      (Row.field_throws row _).bind fun _ => (Row.field_throws row _).bind fun _ =>
        throwsMysql_ok _

/-- The plugin holds for each key of these records the latest type, and nothing else. -/
def Holds (plugin : DyeingPushUserTypePlugin) (records : List Row) : Prop :=
  ∀ key, (plugin.userTypeMap.lookup key = none ↔ ∀ row ∈ records, row.userKey ≠ key) ∧
    ∀ entry, plugin.userTypeMap.lookup key = some entry → Latest records key entry

theorem Holds.update {plugin : DyeingPushUserTypePlugin} {records : List Row}
    (h : plugin.Holds records) (i : Nat) (row : Row) :
    (plugin.update i row).Holds (records ++ [row]) := by
  intro key
  obtain ⟨hnone, hlatest⟩ := h key
  by_cases hkey : row.userKey = key
  · subst hkey
    cases hlookup : plugin.userTypeMap.lookup row.userKey with
    | none =>
      have hnew : (plugin.update i row).userTypeMap.lookup row.userKey = some row.userType := by
        simp [DyeingPushUserTypePlugin.update, setLatest, hlookup]
      refine ⟨by simp [hnew], fun entry hentry => ?_⟩
      obtain rfl := Option.some.inj (hnew.symm.trans hentry)
      exact ⟨records, row, [], rfl, rfl, rfl,
        fun r hr hr' => absurd hr' (hnone.mp hlookup r hr), by simp⟩
    | some old =>
      have hold := hlatest old hlookup
      by_cases hlt : old.timestamp < row.userType.timestamp
      · have hnew : (plugin.update i row).userTypeMap.lookup row.userKey = some row.userType := by
          simp [DyeingPushUserTypePlugin.update, setLatest, hlookup, hlt]
        refine ⟨by simp [hnew], fun entry hentry => ?_⟩
        obtain rfl := Option.some.inj (hnew.symm.trans hentry)
        exact ⟨records, row, [], rfl, rfl, rfl,
          fun r hr hr' => (hold.timestamp_le r hr hr').trans_lt hlt, by simp⟩
      · have hnew : (plugin.update i row).userTypeMap.lookup row.userKey = some old := by
          simp [DyeingPushUserTypePlugin.update, setLatest, hlookup, hlt]
        refine ⟨by simp [hnew], fun entry hentry => ?_⟩
        obtain rfl := Option.some.inj (hnew.symm.trans hentry)
        exact hold.snoc fun _ => not_lt.mp hlt
  · have hsame : (plugin.update i row).userTypeMap.lookup key = plugin.userTypeMap.lookup key :=
      lookup_setLatest_of_ne (Ne.symm hkey)
    rw [hsame]
    refine ⟨?_, fun entry hentry => (hlatest entry hentry).snoc fun h => absurd h hkey⟩
    rw [hnone]
    simp [or_imp, forall_and, hkey]

@[simp] theorem updateRows_pathPrefix (i : Nat) (rows : List Row)
    (plugin : DyeingPushUserTypePlugin) :
    (updateRows update i rows plugin).pathPrefix = plugin.pathPrefix := by
  induction rows generalizing i plugin with
  | nil => rfl
  | cons row rows ih => exact ih (i + 1) (plugin.update i row)

/-- What is held for a key depends on the records with that key alone. -/
theorem lookup_updateRows {plugin other : DyeingPushUserTypePlugin} {key : Bytes}
    (h : plugin.userTypeMap.lookup key = other.userTypeMap.lookup key) (rows : List Row)
    (i j : Nat) :
    (updateRows update i rows plugin).userTypeMap.lookup key =
      (updateRows update j (rows.filter (·.userKey = key)) other).userTypeMap.lookup key := by
  induction rows generalizing i j plugin other with
  | nil => exact h
  | cons row rows ih =>
    by_cases hkey : row.userKey = key
    · subst hkey
      rw [List.filter_cons_of_pos (by simp)]
      exact ih (lookup_setLatest_congr h row.userType) (i + 1) (j + 1)
    · rw [List.filter_cons_of_neg (by simpa using hkey)]
      exact ih ((lookup_setLatest_of_ne (Ne.symm hkey)).trans h) (i + 1) j

theorem holds_updateRows (pathPrefix : Bytes) (records : List Row) :
    (updateRows update 0 records (new pathPrefix)).Holds records := by
  have key (rows done : List Row) (i : Nat) (plugin : DyeingPushUserTypePlugin)
      (h : plugin.Holds done) : (updateRows update i rows plugin).Holds (done ++ rows) := by
    induction rows generalizing done i plugin with
    | nil => simpa [updateRows] using h
    | cons row rows ih =>
      have := ih (done ++ [row]) (i + 1) (plugin.update i row) (h.update i row)
      rwa [List.append_assoc, List.singleton_append] at this
  exact key records [] 0 (new pathPrefix) fun k => by simp [new]

end DyeingPushUserTypePlugin

end ABDyeing
