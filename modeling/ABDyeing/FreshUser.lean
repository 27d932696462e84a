import ABDyeing.Mysql

/-! `DyeingFreshUserPlugin`: the users in the daily table of new users. -/

namespace ABDyeing

open Lib

/-- `pathPrefix` is the field `_prefix`. -/
structure DyeingFreshUserPlugin where
  pathPrefix : Bytes
  map : UnorderedMap Bytes UInt64

namespace DyeingFreshUserPlugin

def new (pathPrefix : Bytes) : DyeingFreshUserPlugin := ⟨pathPrefix, ∅⟩

/-- `get`, which looks at the uid alone and writes no config id. -/
def get (plugin : DyeingFreshUserPlugin) (uid : Bytes) : Bool := uid ∈ plugin.map

def setMap (now : UInt64) (uid : Bytes) (plugin : DyeingFreshUserPlugin) :
    Bool × DyeingFreshUserPlugin :=
  (true, { plugin with map := plugin.map.insert uid now })

/-- The body of the loop over the records; `clock i` is the reading for record `i`. -/
def setRow (clock : Nat → UInt64) (i : Nat) (row : Row) (plugin : DyeingFreshUserPlugin) :
    Outcome Exception (Bool × DyeingFreshUserPlugin) := do
  let uid ← row.field (str "uid")
  return plugin.setMap (clock i) uid

def sql (time : Int64) : Bytes :=
  str "select uid from daily_fresh_user where epoch_day=" ++
    toDecimal (time / (24 * 3600)).toInt32.toInt

def flushFreshUser (store : Store) (client : MysqlClient) (time : Int64) (clock : Nat → UInt64)
    (plugin : DyeingFreshUserPlugin) : Load (Bool × DyeingFreshUserPlugin) :=
  refresh store client plugin.pathPrefix (sql time) (setRow clock) plugin { plugin with map := ∅ }

def columns : List Bytes := [str "uid"]

def update (clock : Nat → UInt64) (i : Nat) (row : Row) (plugin : DyeingFreshUserPlugin) :
    DyeingFreshUserPlugin :=
  { plugin with map := plugin.map.insert ((row.lookup (str "uid")).getD []) (clock i) }

theorem setsRow (clock : Nat → UInt64) : SetsRow columns (update clock) (setRow clock) where
  sets i row plugin h := by
    obtain ⟨uid, huid⟩ := Finmap.mem_iff.mp (h (str "uid") (by simp [columns]))
    simp only [setRow, Row.field_eq_ok.mpr huid, bind, Except.bind, pure, Except.pure, setMap,
      update, huid, Option.getD_some]
  lacks i row plugin result h := by
    obtain ⟨uid, huid, _⟩ := bind_eq_ok.mp h
    intro c hc
    rw [List.mem_singleton.mp hc]
    exact Finmap.mem_of_lookup_eq_some (Row.field_eq_ok.mp huid)
  throws i row plugin := (Row.field_throws row _).bind fun _ => throwsMysql_ok _

def Holds (plugin : DyeingFreshUserPlugin) (records : List Row) : Prop :=
  ∀ uid, uid ∈ plugin.map ↔ ∃ row ∈ records, row.lookup (str "uid") = some uid

theorem mem_updateRows {clock : Nat → UInt64} {rows : List Row}
    (h : ∀ row ∈ rows, HasColumns columns row) (i : Nat) (plugin : DyeingFreshUserPlugin)
    (uid : Bytes) :
    uid ∈ (updateRows (update clock) i rows plugin).map ↔
      uid ∈ plugin.map ∨ ∃ row ∈ rows, row.lookup (str "uid") = some uid := by
  induction rows generalizing i plugin with
  | nil => simp [updateRows]
  | cons row rows ih =>
    obtain ⟨hrow, hrows⟩ := List.forall_mem_cons.mp h
    obtain ⟨v, hv⟩ := Finmap.mem_iff.mp (hrow (str "uid") (by simp [columns]))
    rw [updateRows, ih hrows, List.exists_mem_cons_iff]
    simp only [update, Finmap.mem_insert, hv, Option.getD_some, Option.some.injEq]
    constructor
    · rintro ((rfl | hmem) | hrest)
      · exact .inr (.inl rfl)
      · exact .inl hmem
      · exact .inr (.inr hrest)
    · rintro (hmem | rfl | hrest)
      · exact .inl (.inr hmem)
      · exact .inl (.inl rfl)
      · exact .inr hrest

theorem holds_updateRows {clock : Nat → UInt64} {records : List Row}
    (h : ∀ row ∈ records, HasColumns columns row) (pathPrefix : Bytes) :
    (updateRows (update clock) 0 records (new pathPrefix)).Holds records := by
  intro uid
  rw [mem_updateRows h]
  simp [new, Finmap.notMem_empty]

end DyeingFreshUserPlugin

end ABDyeing
