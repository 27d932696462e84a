import ABDyeing.Fresh.CurrentFresh
import ABDyeing.QConfig

/-! `KafkaThread::processkafka`, over a parameter for the parser of the JSON library.  The payload
is checked to be an object with a `uid`; that this is a string, and that there is an `event_time`
for the log, is not. -/

namespace ABDyeing

open Lib

/-- A parsed document; the members of an object are in their order, and names may repeat. -/
inductive Json
  | null
  | bool (b : Bool)
  | number (literal : Bytes)
  | string (s : Bytes)
  | array (elements : List Json)
  | object (members : List (Bytes × Json))

/-- `s.c_str()`, and what a `std::string` takes from a `char*`: the bytes before the first zero. -/
def cString (s : Bytes) : Bytes := s.takeWhile (· ≠ 0)

namespace Json

/-- `FindMember`, the first member with this name; `none` is `MemberEnd()`. -/
def findMember (members : List (Bytes × Json)) (name : Bytes) : Option Json :=
  (members.find? fun member => decide (member.1 = name)).map Prod.snd

/-- `d[name]`, which asserts that the member is there. -/
def subscript (members : List (Bytes × Json)) (name : Bytes) : Outcome Exception Json :=
  match findMember members name with
  | some value => .ok value
  | none => .error .undefined

/-- `GetString`, which asserts that the value is a string. -/
def getString : Json → Outcome Exception Bytes
  | string s => .ok s
  | _ => .error .undefined

end Json

/-- `processkafka`; `none` of the parser is a parse error, and an assertion that fails is undefined.
The log line is composed of the uid and the `event_time` before the uid is set. -/
def processkafka (parse : Bytes → Option Json) (t1 t2 : UInt64) (msg : Bytes)
    (fresh : CurrentFresh) : Outcome Exception CurrentFresh :=
  match parse (cString msg) with
  | none => .ok fresh
  | some (.object members) =>
    match Json.findMember members (str "uid") with
    | none => .ok fresh
    | some _ => do
      let uid := cString (← (← Json.subscript members (str "uid")).getString)
      let _ ← (← Json.subscript members (str "event_time")).getString
      return fresh.set t1 t2 uid
  | some _ => .ok fresh

/-- The payload parses to an object with these members. -/
def ParsesTo (parse : Bytes → Option Json) (msg : Bytes) (members : List (Bytes × Json)) : Prop :=
  parse (cString msg) = some (.object members)

/-- The record is passed over in every state, or its uid is set in every state. -/
def Processes (parse : Bytes → Option Json) (msg : Bytes) : Prop :=
  ∀ t1 t2 fresh, processkafka parse t1 t2 msg fresh = .ok fresh ∨
    ∃ members uid, ParsesTo parse msg members ∧
      Json.findMember members (str "uid") = some (.string uid) ∧
      processkafka parse t1 t2 msg fresh = .ok (fresh.set t1 t2 uid)

/-- A record with a `uid` has it as a string without a zero byte, and a string `event_time`. -/
def WellFormed (parse : Bytes → Option Json) (msg : Bytes) : Prop :=
  ∀ members value, ParsesTo parse msg members →
    Json.findMember members (str "uid") = some value →
    ∃ uid time, value = .string uid ∧ 0 ∉ uid ∧
      Json.findMember members (str "event_time") = some (.string time)

theorem cString_eq_self_iff {s : Bytes} : cString s = s ↔ 0 ∉ s := by
  rw [cString, List.takeWhile_eq_self_iff]
  constructor
  · intro h hzero
    simpa using h 0 hzero
  · intro h c hc
    have nonzero : c ≠ 0 := fun zero => h (zero ▸ hc)
    simpa using nonzero

theorem ParsesTo.unique {parse : Bytes → Option Json} {msg : Bytes}
    {members others : List (Bytes × Json)} (h : ParsesTo parse msg members)
    (h' : ParsesTo parse msg others) : others = members := by
  have same := Option.some.inj (h'.symm.trans h)
  exact Json.object.inj same

theorem getString_eq_ok {value : Json} {s : Bytes} :
    value.getString = .ok s ↔ value = .string s := by
  cases value <;> simp [Json.getString]

theorem subscript_eq_ok {members : List (Bytes × Json)} {name : Bytes} {value : Json} :
    Json.subscript members name = .ok value ↔ Json.findMember members name = some value := by
  unfold Json.subscript
  cases Json.findMember members name <;> simp

section Members

variable {parse : Bytes → Option Json} {msg : Bytes} {members : List (Bytes × Json)}
  (parses : ParsesTo parse msg members)

include parses

theorem processkafka_without_uid (h : Json.findMember members (str "uid") = none) (t1 t2 : UInt64)
    (fresh : CurrentFresh) : processkafka parse t1 t2 msg fresh = .ok fresh := by
  unfold ParsesTo at parses
  simp only [processkafka, parses, h]

/-- With a `uid`, the record is processed to the end only where both accesses are good, and then
what is set is the uid as a C string. -/
theorem processkafka_with_uid {value : Json}
    (h : Json.findMember members (str "uid") = some value) (t1 t2 : UInt64)
    (fresh after : CurrentFresh) :
    processkafka parse t1 t2 msg fresh = .ok after ↔
      ∃ uid time, value = .string uid ∧
        Json.findMember members (str "event_time") = some (.string time) ∧
        after = fresh.set t1 t2 (cString uid) := by
  unfold ParsesTo at parses
  simp only [processkafka, parses, h, bind_eq_ok, subscript_eq_ok, getString_eq_ok]
  constructor
  · intro ⟨_, hvalue, uid, huid, _, htime, time, hstring, hafter⟩
    obtain rfl := Option.some.inj hvalue
    exact ⟨uid, time, huid, hstring ▸ htime, (Except.ok.inj hafter).symm⟩
  · intro ⟨uid, time, huid, htime, hafter⟩
    exact ⟨value, rfl, uid, huid, _, htime, time, rfl, by rw [hafter]; rfl⟩

end Members

theorem mem_kq_set_empty {t1 t2 : UInt64} {uid v : Bytes} :
    v ∈ (CurrentFresh.empty.set t1 t2 uid).kq ↔ v = uid := by
  rw [CurrentFresh.mem_set_kq]
  exact or_iff_left Finmap.notMem_empty

theorem set_empty_inj {t1 t2 : UInt64} {uid v : Bytes}
    (h : CurrentFresh.empty.set t1 t2 uid = CurrentFresh.empty.set t1 t2 v) : uid = v :=
  mem_kq_set_empty.mp (h ▸ mem_kq_set_empty.mpr rfl)

theorem set_empty_ne_empty (t1 t2 : UInt64) (uid : Bytes) :
    CurrentFresh.empty ≠ CurrentFresh.empty.set t1 t2 uid := by
  intro h
  have hmem : uid ∈ (CurrentFresh.empty.set t1 t2 uid).kq := mem_kq_set_empty.mpr rfl
  rw [← h] at hmem
  exact Finmap.notMem_empty hmem

/-- A record is passed over or its uid is set, without a failing assertion, if and only if it is
well formed. -/
theorem processes_iff (parse : Bytes → Option Json) (msg : Bytes) :
    Processes parse msg ↔ WellFormed parse msg := by
  constructor
  · intro processes members value parses hvalue
    rcases processes 0 0 .empty with same | ⟨others, uid, parses', huid, hset⟩
    · obtain ⟨uid, time, -, -, hafter⟩ :=
        (processkafka_with_uid parses hvalue 0 0 .empty .empty).mp same
      exact absurd hafter (set_empty_ne_empty 0 0 (cString uid))
    · obtain rfl := parses.unique parses'
      obtain ⟨uid', time, rfl, htime, hafter⟩ :=
        (processkafka_with_uid parses hvalue 0 0 .empty _).mp hset
      obtain rfl : uid' = uid := Json.string.inj (Option.some.inj (hvalue.symm.trans huid))
      have hcString : cString uid' = uid' := (set_empty_inj hafter).symm
      exact ⟨uid', time, rfl, cString_eq_self_iff.mp hcString, htime⟩
  · intro wellFormed t1 t2 fresh
    cases hparse : parse (cString msg) with
    | none => exact .inl (by simp only [processkafka, hparse])
    | some document =>
      cases document with
      | object members =>
        cases hvalue : Json.findMember members (str "uid") with
        | none => exact .inl (processkafka_without_uid hparse hvalue t1 t2 fresh)
        | some value =>
          obtain ⟨uid, time, rfl, hzero, htime⟩ := wellFormed members value hparse hvalue
          refine .inr ⟨members, uid, hparse, hvalue, ?_⟩
          rw [processkafka_with_uid hparse hvalue]
          exact ⟨uid, time, rfl, htime, by rw [cString_eq_self_iff.mpr hzero]⟩
      | _ => exact .inl (by simp only [processkafka, hparse])

/-- The parser on the one record `{"uid":"u"}`, and a parse error for any other text. -/
def parseRecord (text : Bytes) : Option Json :=
  if text = str "\x7b\"uid\":\"u\"\x7d" then some (.object [(str "uid", .string (str "u"))])
  else none

/-- A record with a uid and without an `event_time` fails an assertion. -/
theorem processes_fails_example : ¬Processes parseRecord (str "\x7b\"uid\":\"u\"\x7d") := by
  intro processes
  rcases processes 0 0 .empty with same | ⟨_, _, _, _, hset⟩
  · cases same
  · cases hset

end ABDyeing
