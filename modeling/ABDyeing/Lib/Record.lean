import Mathlib.Data.List.Basic
import ABDyeing.Lib.Wire

/-! The readers that a Thrift compiler generates.  A loop goes over the fields of a struct up to the
stop; a `switch` in it reads the fields that it knows by their number and their type, and skips all
others; behind it stands a check that the required fields have been met. -/

namespace Lib

variable {ε α β γ : Type}

/-- A case of the switch, which is taken where the type is the expected one. -/
structure FieldCase (ε α : Type) where
  id : Int16
  type : WireType
  read : α → Reader ε α

def FieldCase.find (fields : List (FieldCase ε α)) (type : WireType) (id : Int16) :
    Option (FieldCase ε α) :=
  fields.find? fun f => decide (f.id = id) && decide (f.type = type)

theorem FieldCase.of_find {fields : List (FieldCase ε α)} {type : WireType} {id : Int16}
    {field : FieldCase ε α} (h : FieldCase.find fields type id = some field) :
    field ∈ fields ∧ field.id = id ∧ field.type = type := by
  have found := List.find?_some h
  rw [Bool.and_eq_true, decide_eq_true_eq, decide_eq_true_eq] at found
  exact ⟨List.mem_of_find?_eq_some h, found⟩

def readTimes (elem : Reader ε β) : Nat → Reader ε (List β)
  | 0 => return []
  | n + 1 => do
    let b ← elem
    return b :: (← readTimes elem n)

namespace Protocol

variable (p : Protocol ε)

/-- The loop over the fields.  The numbers of those that were read stand for the flags `isset_...`;
every round takes at least one byte, so that there is a bound on the rounds. -/
def readFields (fields : List (FieldCase ε α)) : Nat → α → List Int16 → Reader ε (α × List Int16)
  | 0, _, _ => fun _ => .error .undefined
  | rounds + 1, a, isset => do
    match ← p.readFieldBegin with
    | none => return (a, isset)
    | some (type, id) =>
      match FieldCase.find fields type id with
      | none => do
        p.skip type
        readFields fields rounds a isset
      | some field => do
        let a ← field.read a
        readFields fields rounds a (id :: isset)

/-- A generated `read`, into the struct `a`. -/
def readRecord (invalid : ε) (fields : List (FieldCase ε α)) (required : List Int16) (a : α) :
    Reader ε α := fun s => do
  let ((a, isset), rest) ← p.readFields fields (s.length + 1) a [] s
  if required.all (isset.contains ·) then return (a, rest) else .error (.exception invalid)

/-- The number of elements, and then the elements, whatever type is written before them. -/
def readList (elem : Reader ε β) : Reader ε (List β) := do
  let (_, n) ← p.readListBegin
  readTimes elem n

def writeField (type : WireType) (id : Int16) (body : Bytes) : Bytes :=
  p.writeFieldBegin type id ++ body

def writeList (type : WireType) (write : γ → Bytes) (elems : List γ) : Bytes :=
  p.writeListBegin type elems.length ++ elems.flatMap write

end Protocol

/-- A field on the wire. -/
structure Written where
  type : WireType
  id : Int16
  body : Bytes

namespace Protocol

section Fields

variable (p : Protocol ε)

def writeStruct : List Written → Bytes
  | [] => p.writeFieldStop
  | w :: ws => p.writeField w.type w.id (w.body ++ writeStruct ws)

/-- What the loop makes of a struct when it meets these fields: the struct `a` becomes `b`, and the
numbers are those of the fields that were read. -/
inductive FieldsRead (fields : List (FieldCase ε α)) : List Written → α → α → List Int16 → Prop
  | stop (a : α) : FieldsRead fields [] a a []
  | skip {w : Written} {ws : List Written} {a b : α} {isset : List Int16}
      (unknown : FieldCase.find fields w.type w.id = none)
      (skips : ∀ rest, p.skip w.type (w.body ++ rest) = .ok ((), rest))
      (later : FieldsRead fields ws a b isset) : FieldsRead fields (w :: ws) a b isset
  | read {w : Written} {ws : List Written} {field : FieldCase ε α} {a a' b : α} {isset : List Int16}
      (known : FieldCase.find fields w.type w.id = some field)
      (reads : ∀ rest, field.read a (w.body ++ rest) = .ok (a', rest))
      (later : FieldsRead fields ws a' b isset) : FieldsRead fields (w :: ws) a b (w.id :: isset)

end Fields

variable {p : Protocol ε}

theorem Lawful.length_le (lawful : p.Lawful) (ws : List Written) (rest : Bytes) :
    ws.length < (p.writeStruct ws ++ rest).length := by
  induction ws with
  | nil =>
    have := List.length_pos_iff.mpr lawful.fieldStop_ne
    simp only [writeStruct, List.length_append, List.length_nil]
    omega
  | cons w ws ih =>
    have := List.length_pos_iff.mpr (lawful.fieldBegin_ne w.type w.id)
    simp only [writeStruct, writeField, List.length_append, List.length_cons] at ih ⊢
    omega

theorem readFields_of_fieldsRead (lawful : p.Lawful) {fields : List (FieldCase ε α)}
    {ws : List Written} {a b : α} {isset : List Int16} (h : p.FieldsRead fields ws a b isset)
    {rounds : Nat} (enough : ws.length < rounds) (before : List Int16) (rest : Bytes) :
    p.readFields fields rounds a before (p.writeStruct ws ++ rest) =
      .ok ((b, isset.reverse ++ before), rest) := by
  induction h generalizing rounds before with
  | stop a =>
    obtain ⟨rounds, rfl⟩ := Nat.exists_eq_succ_of_ne_zero (Nat.ne_of_gt enough)
    rw [readFields, writeStruct, Reader.bind_ok (lawful.fieldStop _)]
    rfl
  | skip unknown skips later ih =>
    obtain ⟨rounds, rfl⟩ := Nat.exists_eq_succ_of_ne_zero (Nat.ne_of_gt (Nat.zero_lt_of_lt enough))
    rw [readFields, writeStruct, writeField, List.append_assoc,
      Reader.bind_ok (lawful.fieldBegin _ _ _)]
    simp only [unknown, List.append_assoc]
    rw [Reader.bind_ok (skips _)]
    exact ih (Nat.lt_of_succ_lt_succ enough) before
  | @read w ws field a a' b isset known reads later ih =>
    obtain ⟨rounds, rfl⟩ := Nat.exists_eq_succ_of_ne_zero (Nat.ne_of_gt (Nat.zero_lt_of_lt enough))
    rw [readFields, writeStruct, writeField, List.append_assoc,
      Reader.bind_ok (lawful.fieldBegin _ _ _)]
    simp only [known, List.append_assoc]
    rw [Reader.bind_ok (reads _), ih (Nat.lt_of_succ_lt_succ enough) (w.id :: before),
      List.reverse_cons, List.append_assoc]
    rfl

/-- A field that cannot be read ends the loop. -/
theorem readFields_error (lawful : p.Lawful) {fields : List (FieldCase ε α)}
    {before ws : List Written} {w : Written} {field : FieldCase ε α} {a a' : α}
    {isset : List Int16} {e : Abort ε} (h : p.FieldsRead fields before a a' isset)
    (known : FieldCase.find fields w.type w.id = some field)
    (fails : ∀ rest, field.read a' (w.body ++ rest) = .error e) {rounds : Nat}
    (enough : (before ++ w :: ws).length < rounds) (met : List Int16) (rest : Bytes) :
    p.readFields fields rounds a met (p.writeStruct (before ++ w :: ws) ++ rest) = .error e := by
  induction h generalizing rounds met with
  | stop a =>
    obtain ⟨rounds, rfl⟩ := Nat.exists_eq_succ_of_ne_zero (Nat.ne_of_gt (Nat.zero_lt_of_lt enough))
    rw [List.nil_append, readFields, writeStruct, writeField, List.append_assoc,
      Reader.bind_ok (lawful.fieldBegin _ _ _)]
    simp only [known, List.append_assoc]
    exact Reader.bind_error (fails _) _
  | skip unknown skips later ih =>
    obtain ⟨rounds, rfl⟩ := Nat.exists_eq_succ_of_ne_zero (Nat.ne_of_gt (Nat.zero_lt_of_lt enough))
    rw [List.cons_append, readFields, writeStruct, writeField, List.append_assoc,
      Reader.bind_ok (lawful.fieldBegin _ _ _)]
    simp only [unknown, List.append_assoc]
    rw [Reader.bind_ok (skips _)]
    exact ih fails (Nat.lt_of_succ_lt_succ enough) met
  | read known' reads later ih =>
    obtain ⟨rounds, rfl⟩ := Nat.exists_eq_succ_of_ne_zero (Nat.ne_of_gt (Nat.zero_lt_of_lt enough))
    rw [List.cons_append, readFields, writeStruct, writeField, List.append_assoc,
      Reader.bind_ok (lawful.fieldBegin _ _ _)]
    simp only [known', List.append_assoc]
    rw [Reader.bind_ok (reads _)]
    exact ih fails (Nat.lt_of_succ_lt_succ enough) _

theorem readRecord_error (lawful : p.Lawful) {fields : List (FieldCase ε α)}
    {before ws : List Written} {w : Written} {field : FieldCase ε α} {a a' : α}
    {isset : List Int16} {e : Abort ε} (h : p.FieldsRead fields before a a' isset)
    (known : FieldCase.find fields w.type w.id = some field)
    (fails : ∀ rest, field.read a' (w.body ++ rest) = .error e) (invalid : ε)
    (required : List Int16) (rest : Bytes) :
    p.readRecord invalid fields required a (p.writeStruct (before ++ w :: ws) ++ rest) =
      .error e := by
  have enough := Nat.lt_succ_of_lt (lawful.length_le (before ++ w :: ws) rest)
  simp only [readRecord, readFields_error lawful h known fails enough, bind, Except.bind]

/-- A generated reader returns what the loop has made of the struct, if all that is required was
read, and else throws. -/
theorem readRecord_of_fieldsRead (lawful : p.Lawful) {fields : List (FieldCase ε α)}
    {ws : List Written} {a b : α} {isset : List Int16} (h : p.FieldsRead fields ws a b isset)
    (invalid : ε) (required : List Int16) (rest : Bytes) :
    p.readRecord invalid fields required a (p.writeStruct ws ++ rest) =
      if required.all (isset.contains ·) then .ok (b, rest)
      else .error (.exception invalid) := by
  have enough := Nat.lt_succ_of_lt (lawful.length_le ws rest)
  simp only [readRecord, readFields_of_fieldsRead lawful h enough [] rest, List.append_nil, bind,
    Except.bind, List.contains_reverse]
  rfl

/-- The case that nothing required is missing. -/
theorem Lawful.readRecord_writeStruct (lawful : p.Lawful) {fields : List (FieldCase ε α)}
    {ws : List Written} {a b : α} {isset : List Int16} (h : p.FieldsRead fields ws a b isset)
    {invalid : ε} {required : List Int16} (all : ∀ id ∈ required, id ∈ isset) (rest : Bytes) :
    p.readRecord invalid fields required a (p.writeStruct ws ++ rest) = .ok (b, rest) := by
  rw [readRecord_of_fieldsRead lawful h, if_pos (by simpa using all)]

theorem readTimes_flatMap {elem : Reader ε β} {write : γ → Bytes} {value : γ → β} {elems : List γ}
    (each : ∀ x ∈ elems, ∀ rest, elem (write x ++ rest) = .ok (value x, rest)) (rest : Bytes) :
    readTimes elem elems.length (elems.flatMap write ++ rest) = .ok (elems.map value, rest) := by
  induction elems with
  | nil => rfl
  | cons x elems ih =>
    obtain ⟨first, later⟩ := List.forall_mem_cons.mp each
    rw [List.length_cons, readTimes, List.flatMap_cons, List.append_assoc, Reader.bind_ok (first _),
      Reader.bind_ok (ih later)]
    rfl

theorem Lawful.readList_writeList (lawful : p.Lawful) {elem : Reader ε β} {write : γ → Bytes}
    {value : γ → β} {elems : List γ} (limit : elems.length < WireValue.sizeLimit)
    (each : ∀ x ∈ elems, ∀ rest, elem (write x ++ rest) = .ok (value x, rest)) (type : WireType)
    (rest : Bytes) :
    p.readList elem (p.writeList type write elems ++ rest) = .ok (elems.map value, rest) := by
  rw [readList, writeList, List.append_assoc, Reader.bind_ok (lawful.listBegin _ _ _ limit)]
  exact readTimes_flatMap each rest

theorem Lawful.readList_error (lawful : p.Lawful) {elem : Reader ε β} {write : γ → Bytes}
    {x : γ} {elems : List γ} (limit : (x :: elems).length < WireValue.sizeLimit) {e : Abort ε}
    (fails : ∀ rest, elem (write x ++ rest) = .error e) (type : WireType) (rest : Bytes) :
    p.readList elem (p.writeList type write (x :: elems) ++ rest) = .error e := by
  rw [readList, writeList, List.append_assoc, Reader.bind_ok (lawful.listBegin _ _ _ limit),
    List.flatMap_cons, List.append_assoc]
  exact Reader.bind_error (fails _) _

theorem Lawful.readList_same (lawful : p.Lawful) {elem : Reader ε β} {write : β → Bytes}
    {elems : List β} (limit : elems.length < WireValue.sizeLimit)
    (each : ∀ x ∈ elems, ∀ rest, elem (write x ++ rest) = .ok (x, rest)) (type : WireType)
    (rest : Bytes) :
    p.readList elem (p.writeList type write elems ++ rest) = .ok (elems, rest) := by
  have read := lawful.readList_writeList limit each type rest
  rwa [List.map_id'] at read

end Protocol

namespace WireValue

variable (p : Protocol ε)

theorem writeElems_eq (elems : List WireValue) : writeElems p elems = elems.flatMap (write p) := by
  induction elems with
  | nil => rfl
  | cons v elems ih => rw [writeElems, ih, List.flatMap_cons]

/-- The fields of a struct as they stand on the wire. -/
def written (fields : List (Int16 × WireValue)) : List Written :=
  fields.map fun f => ⟨f.2.type, f.1, f.2.write p⟩

theorem writeFields_eq (fields : List (Int16 × WireValue)) :
    writeFields p fields = p.writeStruct (written p fields) := by
  induction fields with
  | nil => rfl
  | cons f fields ih =>
    obtain ⟨id, v⟩ := f
    rw [writeFields, ih]
    rfl

end WireValue

section Fields

variable {p : Protocol ε} {fields : List (FieldCase ε α)}

/-- The fields that a reader with this switch does not skip. -/
def FieldCase.known (fields : List (FieldCase ε α)) (values : List (Int16 × WireValue)) :
    List (Int16 × WireValue) :=
  values.filter fun f => (FieldCase.find fields f.2.type f.1).isSome

/-- Of any well formed fields, in whatever order and number, the loop skips those that it does not
know, and the others it reads one after the other into the struct. -/
theorem Protocol.Lawful.fieldsRead (lawful : p.Lawful) {values : List (Int16 × WireValue)}
    (fit : WireValue.FitFields values) {update : α → Int16 × WireValue → α}
    (reads : ∀ f ∈ values, ∀ field, FieldCase.find fields f.2.type f.1 = some field →
      ∀ a rest, field.read a (f.2.write p ++ rest) = .ok (update a f, rest)) (a : α) :
    p.FieldsRead fields (WireValue.written p values) a
      ((FieldCase.known fields values).foldl update a)
      ((FieldCase.known fields values).map (·.1)) := by
  induction values generalizing a with
  | nil => exact .stop a
  | cons f values ih =>
    obtain ⟨first, reads⟩ := List.forall_mem_cons.mp reads
    rw [FieldCase.known, List.filter_cons]
    cases h : FieldCase.find fields f.2.type f.1 with
    | none => exact .skip h (fun rest => lawful.skip f.2 rest fit.1) (ih fit.2 reads a)
    | some field => exact .read h (first field h a) (ih fit.2 reads (update a f))

/-- What every field that is read keeps, a reader without required fields keeps. -/
theorem Protocol.Lawful.readRecord_keeps (lawful : p.Lawful) {inv : α → Prop}
    {values : List (Int16 × WireValue)} (fit : WireValue.FitFields values)
    {a : α} (start : inv a)
    (reads : ∀ f ∈ values, ∀ field, FieldCase.find fields f.2.type f.1 = some field → ∀ a, inv a →
      ∃ a', inv a' ∧ ∀ rest, field.read a (f.2.write p ++ rest) = .ok (a', rest)) (invalid : ε)
    (rest : Bytes) :
    ∃ b, inv b ∧ p.readRecord invalid fields [] a ((WireValue.struct values).write p ++ rest) =
      .ok (b, rest) := by
  have trace : ∃ b isset, inv b ∧
      p.FieldsRead fields (WireValue.written p values) a b isset := by
    induction values generalizing a with
    | nil => exact ⟨a, [], start, .stop a⟩
    | cons f values ih =>
      obtain ⟨first, reads⟩ := List.forall_mem_cons.mp reads
      cases h : FieldCase.find fields f.2.type f.1 with
      | none =>
        obtain ⟨b, isset, kept, later⟩ := ih fit.2 start reads
        exact ⟨b, isset, kept, .skip h (fun rest => lawful.skip f.2 rest fit.1) later⟩
      | some field =>
        obtain ⟨a', kept, read⟩ := first field h a start
        obtain ⟨b, isset, kept, later⟩ := ih fit.2 kept reads
        exact ⟨b, f.1 :: isset, kept, .read h read later⟩
  obtain ⟨b, isset, kept, trace⟩ := trace
  refine ⟨b, kept, ?_⟩
  rw [WireValue.write, WireValue.writeFields_eq]
  exact lawful.readRecord_writeStruct trace (by simp) rest

/-- A part of the struct that only some of the fields set has what the last one of them set. -/
theorem foldl_last {update : α → γ → α} (part : α → β) (sets : γ → Option β)
    (each : ∀ a x, part (update a x) = (sets x).getD (part a)) (xs : List γ) (a : α) :
    part (xs.foldl update a) = (xs.filterMap sets).getLast?.getD (part a) := by
  induction xs generalizing a with
  | nil => rfl
  | cons x xs ih =>
    rw [List.foldl_cons, ih, each, List.filterMap_cons]
    cases sets x with
    | none => rfl
    | some b =>
      rw [List.getLast?_cons]
      cases (xs.filterMap sets).getLast? <;> rfl

/-- What the last of the fields sets that set this at all. -/
def lastOf (sets : Int16 × WireValue → Option β) (values : List (Int16 × WireValue)) : Option β :=
  (values.filterMap sets).getLast?

/-- A part of a struct that is set by the fields of one number. -/
structure FieldCase.Sets (fields : List (FieldCase ε α)) (update : α → Int16 × WireValue → α)
    (id : Int16) (sets : Int16 × WireValue → Option β) (part : α → β) : Prop where
  known : ∀ f, (sets f).isSome ↔ f.1 = id ∧ (FieldCase.find fields f.2.type f.1).isSome
  update : ∀ a f, part (update a f) = (sets f).getD (part a)

variable {update : α → Int16 × WireValue → α} {id : Int16} {sets : Int16 × WireValue → Option β}
  {part : α → β}

theorem FieldCase.Sets.filterMap_known (h : FieldCase.Sets fields update id sets part)
    (values : List (Int16 × WireValue)) :
    (FieldCase.known fields values).filterMap sets = values.filterMap sets := by
  rw [FieldCase.known, List.filterMap_filter]
  refine List.filterMap_congr fun f _ => ?_
  cases hf : sets f with
  | none => exact ite_self none
  | some b => exact if_pos ((h.known f).mp (by rw [hf]; rfl)).2

theorem FieldCase.Sets.last (h : FieldCase.Sets fields update id sets part)
    (values : List (Int16 × WireValue)) (a : α) :
    part ((FieldCase.known fields values).foldl update a) = (lastOf sets values).getD (part a) := by
  rw [foldl_last part sets h.update, h.filterMap_known, lastOf]

theorem FieldCase.Sets.mem_iff (h : FieldCase.Sets fields update id sets part)
    (values : List (Int16 × WireValue)) :
    id ∈ (FieldCase.known fields values).map (·.1) ↔ (lastOf sets values).isSome := by
  rw [lastOf, List.getLast?_isSome]
  constructor
  · intro mem
    obtain ⟨f, mem, number⟩ := List.mem_map.mp mem
    obtain ⟨mem, known⟩ := List.mem_filter.mp mem
    obtain ⟨b, hb⟩ := Option.isSome_iff_exists.mp ((h.known f).mpr ⟨number, known⟩)
    exact List.ne_nil_of_mem (List.mem_filterMap.mpr ⟨f, mem, hb⟩)
  · intro some
    obtain ⟨b, mem⟩ := List.exists_mem_of_ne_nil _ some
    obtain ⟨f, mem, hb⟩ := List.mem_filterMap.mp mem
    obtain ⟨number, known⟩ := (h.known f).mp (by rw [hb]; rfl)
    exact List.mem_map.mpr ⟨f, List.mem_filter.mpr ⟨mem, known⟩, number⟩

end Fields

section Strings

/-- The bytes of a string. -/
def WireValue.text : WireValue → Bytes
  | .string s => s
  | _ => []

/-- The string of a field with this number. -/
def stringAt (id : Int16) : Int16 × WireValue → Option Bytes
  | (n, .string s) => if n = id then some s else none
  | _ => none

/-- The strings of a list with this number. -/
def stringsAt (id : Int16) : Int16 × WireValue → Option (List Bytes)
  | (n, .list _ elems) => if n = id then some (elems.map WireValue.text) else none
  | _ => none

/-- A list with this number holds strings. -/
def StringLists (id : Int16) (values : List (Int16 × WireValue)) : Prop :=
  ∀ elem elems, (id, .list elem elems) ∈ values → ∀ v ∈ elems, v.type = .string

variable {id : Int16} {f : Int16 × WireValue}

theorem stringAt_isSome : (stringAt id f).isSome ↔ f.1 = id ∧ f.2.type = .string := by
  obtain ⟨n, v⟩ := f
  cases v <;> simp [stringAt, WireValue.type]

theorem stringsAt_isSome : (stringsAt id f).isSome ↔ f.1 = id ∧ f.2.type = .list := by
  obtain ⟨n, v⟩ := f
  cases v <;> simp [stringsAt, WireValue.type]

variable {p : Protocol ε} (lawful : p.Lawful)

include lawful

theorem readString_text {v : WireValue} (string : v.type = .string) (fits : v.Fits)
    (rest : Bytes) : p.readString (v.write p ++ rest) = .ok (v.text, rest) := by
  cases v with
  | string s => exact lawful.string s rest fits
  | _ => cases string

theorem readStrings_text {elem : WireType} {elems : List WireValue}
    (fits : (WireValue.list elem elems).Fits) (strings : ∀ v ∈ elems, v.type = .string)
    (rest : Bytes) :
    p.readList p.readString ((WireValue.list elem elems).write p ++ rest) =
      .ok (elems.map WireValue.text, rest) := by
  obtain ⟨limit, fit⟩ := fits
  rw [WireValue.write, WireValue.writeElems_eq]
  exact lawful.readList_writeList limit
    (fun v mem => readString_text lawful (strings v mem) (fit.of_mem mem).2) elem rest

end Strings

end Lib
