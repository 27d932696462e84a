import Mathlib.Data.List.Forall2
import ABDyeing.Config.Domain

/-! `KafkaThread::loadbase`, which reads the brokers, the topic and the group from the
configuration.  A line of the brokers is split at `=` and at `:` with empty fields dropped, and the
second field of each split is taken without a look at how many there are. -/

namespace ABDyeing

open Lib

structure KafkaBase where
  brokers : List (Bytes × UInt16)
  topic : Bytes
  group : Bytes

/-- The body of the loop over the lines; the port is an `int` that is stored in 16 bits. -/
def parseBroker (line : Bytes) : Outcome ConfigException (Bytes × UInt16) := do
  let kv := sepstr line (str "=") false
  let servers := sepstr (← vectorAt kv 1) (str ":") false
  let ip ← vectorAt servers 0
  let port := atoi (← vectorAt servers 1)
  return (ip, port.toUInt32.toUInt16)

def loadBrokers :
    List Bytes → List (Bytes × UInt16) → Outcome ConfigException (List (Bytes × UInt16))
  | [], brokers => .ok brokers
  | line :: lines, brokers => do
    let broker ← parseBroker line
    loadBrokers lines (brokers ++ [broker])

def brokersPath : Bytes := str "/main/fresh/brokers"

/-- `KafkaThread::loadbase`, once the file is parsed; `none` is `exit(-1)`. -/
def loadbase (conf : Config) : Outcome ConfigException (Option KafkaBase) := do
  let kafkaServers ← conf.getDomainLine brokersPath
  let brokers ← loadBrokers kafkaServers []
  if brokers.isEmpty then return none
  else do
    let topic ← conf.get (str "/main/fresh/[topic]") []
    if topic.isEmpty then return none
    else do
      let group ← conf.get (str "/main/fresh/[group]") []
      if group.isEmpty then return none
      else return some ⟨brokers, topic, group⟩

/-- A decimal numeral. -/
def IsNumeral (text : Bytes) : Prop := text ≠ [] ∧ ∀ c ∈ text, isDigit c = true

/-- A line `name=ip:port`, with the port written as `text`. -/
structure BrokerLine where
  name : Bytes
  ip : Bytes
  text : Bytes
  nameNonempty : name ≠ []
  nameClean : 61 ∉ name
  ipNonempty : ip ≠ []
  ipClean : 61 ∉ ip ∧ 58 ∉ ip
  numeral : IsNumeral text
  range : 1 ≤ digitsValue text ∧ digitsValue text ≤ 65535

def BrokerLine.line (written : BrokerLine) : Bytes :=
  written.name ++ str "=" ++ written.ip ++ str ":" ++ written.text

/-- What stands in a line where the address and the port should: the first two fields of its second
field. -/
def brokerFields (line : Bytes) : Option (Bytes × Bytes) :=
  match sepstr line (str "=") false with
  | _ :: servers :: _ =>
    match sepstr servers (str ":") false with
    | ip :: port :: _ => some (ip, port)
    | _ => none
  | _ => none

/-- The text gives the number `n`: it is `n` as it is written, with a sign or without, and what
stands behind the digits, if anything does, is something that `behind` admits. -/
def GivesNumber (behind : Bytes → Prop) (text : Bytes) (n : Int) : Prop :=
  ∃ (written : WrittenInt) (rest : Bytes), text = written.text ++ rest ∧
    (∀ c ∈ rest.head?, isDigit c = false) ∧ (rest = [] ∨ behind rest) ∧ n = written.value

section Reading

variable (behind : Bytes → Prop)

/-- The broker is the one that a line of the right form names, and in any case it has the port that
the line gives for it. -/
structure ReadFrom (line : Bytes) (broker : Bytes × UInt16) : Prop where
  formed : ∀ written : BrokerLine, written.line = line →
    broker.1 = written.ip ∧ broker.2.toNat = digitsValue written.text
  port : ∃ ip text, brokerFields line = some (ip, text) ∧ GivesNumber behind text broker.2.toNat

/-- The lines are loaded without an access past the end, and each line gives a broker of its own. -/
def LoadsExactly (lines : List Bytes) : Prop :=
  ∃ brokers, loadBrokers lines [] = .ok brokers ∧ List.Forall₂ (ReadFrom behind) lines brokers

/-- The line has an address and a port, which is a number of 0 to 65535. -/
def HasPort (line : Bytes) : Prop :=
  ∃ ip text n, brokerFields line = some (ip, text) ∧ GivesNumber behind text n ∧ 0 ≤ n ∧ n ≤ 65535

end Reading

def portOf (text : Bytes) : UInt16 := (atoi text).toUInt32.toUInt16

theorem parseBroker_eq (line : Bytes) :
    parseBroker line =
      match brokerFields line with
      | some (ip, text) => .ok (ip, portOf text)
      | none => .error .undefined := by
  unfold parseBroker brokerFields
  match sepstr line (str "=") false with
  | [] => rfl
  | [_] => rfl
  | _ :: servers :: _ =>
    simp only [vectorAt, List.getElem?_cons_succ, List.getElem?_cons_zero, bind, Except.bind]
    match sepstr servers (str ":") false with
    | [] => rfl
    | [_] => rfl
    | ip :: port :: _ => rfl

theorem GivesNumber.strtol {behind : Bytes → Prop} {text : Bytes} {n : Int}
    (gives : GivesNumber behind text n) :
    Lib.strtol text = max (-2 ^ 63) (min (2 ^ 63 - 1) n) := by
  obtain ⟨written, rest, rfl, stops, -, rfl⟩ := gives
  exact strtol_written written stops

theorem GivesNumber.portOf {behind : Bytes → Prop} {text : Bytes} {n : Nat}
    (gives : GivesNumber behind text n) (h : n ≤ 65535) : (ABDyeing.portOf text).toNat = n := by
  have value : Lib.strtol text = n := gives.strtol.trans (by omega)
  rw [ABDyeing.portOf, atoi, value, Int32.ofInt_eq_ofNat]
  change (UInt32.ofNat n).toUInt16.toNat = n
  rw [UInt32.toNat_toUInt16, UInt32.toNat_ofNat_of_lt' (by rw [UInt32.size]; omega)]
  omega

/-- A bare numeral gives its number. -/
theorem givesNumber_digits (behind : Bytes → Prop) {text : Bytes} (numeral : IsNumeral text) :
    GivesNumber behind text (digitsValue text) :=
  ⟨⟨[], [], text, by simp, .inl rfl, numeral.1, numeral.2⟩, [], (List.append_nil text).symm,
    by simp, .inl rfl, (if_neg (show ¬([] : Bytes) = str "-" by decide)).symm⟩

theorem loadBrokers_eq_ok {lines : List Bytes} {before brokers : List (Bytes × UInt16)} :
    loadBrokers lines before = .ok brokers ↔
      ∃ loaded, brokers = before ++ loaded ∧
        List.Forall₂ (fun line broker => parseBroker line = .ok broker) lines loaded := by
  induction lines generalizing before with
  | nil => simp [loadBrokers, eq_comm]
  | cons line lines ih =>
    rw [loadBrokers, bind_eq_ok]
    constructor
    · intro ⟨broker, hbroker, h⟩
      obtain ⟨loaded, rfl, hloaded⟩ := ih.mp h
      exact ⟨broker :: loaded, by simp, .cons hbroker hloaded⟩
    · intro ⟨loaded, hbrokers, h⟩
      obtain ⟨broker, rest, hbroker, hrest, rfl⟩ := List.forall₂_cons_left_iff.mp h
      exact ⟨broker, hbroker, ih.mpr ⟨rest, by simp [hbrokers], hrest⟩⟩

/-- A line of the right form is split into its address and its port. -/
theorem BrokerLine.fields (written : BrokerLine) :
    brokerFields written.line = some (written.ip, written.text) := by
  have textClean (c : UInt8) (hc : isDigit c = false) : c ∉ written.text := fun hmem =>
    Bool.noConfusion (hc.symm.trans (written.numeral.2 c hmem))
  have equals : sepstr written.line (str "=") false =
      [written.name, written.ip ++ str ":" ++ written.text] := by
    have clean : 61 ∉ written.ip ++ str ":" ++ written.text := by
      simp only [List.mem_append, not_or]
      exact ⟨⟨written.ipClean.1, by decide⟩, textClean 61 (by decide)⟩
    have parts : written.line =
        written.name ++ 61 :: (written.ip ++ str ":" ++ written.text) := by
      simp only [line, List.append_assoc]
      rfl
    rw [show str "=" = [61] from rfl, sepstr_skipEmpty, parts,
      List.splitOn_append_cons_self_of_not_mem written.nameClean,
      List.splitOn_eq_singleton clean]
    simp [written.nameNonempty, written.ipNonempty]
  have colon : sepstr (written.ip ++ str ":" ++ written.text) (str ":") false =
      [written.ip, written.text] := by
    have parts : written.ip ++ str ":" ++ written.text = written.ip ++ 58 :: written.text := by
      rw [List.append_assoc]
      rfl
    rw [show str ":" = [58] from rfl] at *
    rw [sepstr_skipEmpty, parts, List.splitOn_append_cons_self_of_not_mem written.ipClean.2,
      List.splitOn_eq_singleton (textClean 58 (by decide))]
    simp [written.ipNonempty, written.numeral.1]
  simp only [brokerFields, equals, colon]

section Reading

variable (behind : Bytes → Prop)

/-- One line: a broker is read from it, and read rightly, exactly when it has a port. -/
theorem readFrom_iff (line : Bytes) :
    (∃ broker, parseBroker line = .ok broker ∧ ReadFrom behind line broker) ↔
      HasPort behind line := by
  rw [parseBroker_eq]
  constructor
  · intro ⟨broker, _, read⟩
    obtain ⟨ip, text, hfields, gives⟩ := read.port
    exact ⟨ip, text, _, hfields, gives, by omega, by have := broker.2.toNat_lt; omega⟩
  · intro ⟨ip, text, n, hfields, gives, low, high⟩
    obtain ⟨n, rfl⟩ := Int.eq_ofNat_of_zero_le low
    simp only [hfields]
    have port : (portOf text).toNat = n := gives.portOf (by omega)
    refine ⟨_, rfl, fun written hline => ?_, ip, text, hfields, by rw [port]; exact gives⟩
    have same := written.fields
    rw [hline, hfields] at same
    obtain ⟨rfl, rfl⟩ := Prod.mk.inj (Option.some.inj same)
    exact ⟨rfl, (givesNumber_digits behind written.numeral).portOf written.range.2⟩

theorem loadsExactly_iff (lines : List Bytes) :
    LoadsExactly behind lines ↔ ∀ line ∈ lines, HasPort behind line := by
  simp only [LoadsExactly, loadBrokers_eq_ok, List.nil_append, exists_eq_left']
  induction lines with
  | nil => simp
  | cons line lines ih =>
    rw [List.forall_mem_cons, ← readFrom_iff behind line, ← ih]
    constructor
    · intro ⟨brokers, hload, hread⟩
      obtain ⟨broker, rest, hbroker, hrest, rfl⟩ := List.forall₂_cons_left_iff.mp hload
      obtain ⟨read, reads⟩ := List.forall₂_cons.mp hread
      exact ⟨⟨broker, hbroker, read⟩, rest, hrest, reads⟩
    · intro ⟨⟨broker, hbroker, read⟩, rest, hrest, reads⟩
      exact ⟨broker :: rest, .cons hbroker hrest, .cons read reads⟩

end Reading

theorem loadbase_eq {conf : Config} {lines : List Bytes}
    (hlines : conf.getDomainLine brokersPath = .ok lines) :
    (loadbase conf = .error .undefined ↔ loadBrokers lines [] = .error .undefined) ∧
      ∀ base, loadbase conf = .ok (some base) → loadBrokers lines [] = .ok base.brokers := by
  have get (name : String) (dp : DomainPath) (h : parseDomainName (str name) true = .ok dp) :
      conf.get (str name) [] = .ok ((conf.paramAt dp.domains dp.param).getD []) :=
    Config.get_of_path h []
  have topic := get "/main/fresh/[topic]" ⟨[str "main", str "fresh"], str "topic"⟩ rfl
  have group := get "/main/fresh/[group]" ⟨[str "main", str "fresh"], str "group"⟩ rfl
  cases hload : loadBrokers lines [] with
  | error e =>
    have hbase : loadbase conf = .error e := by
      rw [loadbase, hlines]
      simp only [bind, Except.bind, hload]
    rw [hbase]
    exact ⟨by simp, fun base h => by cases h⟩
  | ok brokers =>
    have hbase : ∃ result, loadbase conf = .ok result ∧
        ∀ base, result = some base → base.brokers = brokers := by
      rw [loadbase, hlines]
      simp only [bind, Except.bind, hload, topic, group]
      split
      · exact ⟨none, rfl, by simp⟩
      split
      · exact ⟨none, rfl, by simp⟩
      split
      · exact ⟨none, rfl, by simp⟩
      · exact ⟨some _, rfl, fun base h => (congrArg KafkaBase.brokers (Option.some.inj h)).symm⟩
    obtain ⟨result, hresult, hbrokers⟩ := hbase
    rw [hresult]
    refine ⟨by simp, fun base h => ?_⟩
    rw [hbrokers base (Except.ok.inj h)]

/-- A port with a blank and a sign before it is read as any other. -/
example : HasPort (fun _ => False) (str "kafka1=10.0.0.1: +9092") :=
  ⟨str "10.0.0.1", str " +9092", 9092, rfl,
    ⟨⟨str " ", str "+", str "9092", List.all_eq_true.mp rfl, .inr (.inl rfl), by decide,
      List.all_eq_true.mp rfl⟩, [], rfl, by simp, .inl rfl, rfl⟩, by decide, by decide⟩

end ABDyeing
