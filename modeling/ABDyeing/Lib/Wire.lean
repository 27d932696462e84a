import ABDyeing.Lib.Bytes
import ABDyeing.Lib.Outcome

/-! Values on a wire, after the way of Thrift: every value has a type, and a struct is a sequence of
numbered fields up to a stop.  The protocol, which turns this into bytes and back, is a parameter;
of a reader it is required only that it reads what the writer wrote, whatever bytes follow. -/

namespace Lib

inductive WireType
  | bool
  | byte
  | double
  | i16
  | i32
  | i64
  | string
  | struct
  | map
  | set
  | list
  deriving DecidableEq

inductive WireValue
  | bool (b : Bool)
  | byte (n : UInt8)
  | double (bits : UInt64)
  | i16 (n : Int16)
  | i32 (n : Int32)
  | i64 (n : Int64)
  | string (s : Bytes)
  | struct (fields : List (Int16 × WireValue))
  | map (key value : WireType) (entries : List (WireValue × WireValue))
  | set (elem : WireType) (elems : List WireValue)
  | list (elem : WireType) (elems : List WireValue)

inductive MessageType
  | call
  | reply
  | exception
  | oneway
  deriving DecidableEq

/-- A reader takes what is left to read, and leaves what it has not read. -/
abbrev Reader (ε α : Type) := StateT Bytes (Outcome ε) α

theorem Reader.bind_ok {ε α β : Type} {x : Reader ε α} {s rest : Bytes} {a : α}
    (h : x s = .ok (a, rest)) (f : α → Reader ε β) : (x >>= f) s = f a rest := by
  simp only [bind, StateT.bind, h, Except.bind]

theorem Reader.bind_error {ε α β : Type} {x : Reader ε α} {s : Bytes} {e : Abort ε}
    (h : x s = .error e) (f : α → Reader ε β) : (x >>= f) s = .error e := by
  simp only [bind, StateT.bind, h, Except.bind]

theorem Reader.map_ok {ε α β : Type} {x : Reader ε α} {s rest : Bytes} {a : α}
    (h : x s = .ok (a, rest)) (f : α → β) :
    (do let a ← x; return f a : Reader ε β) s = .ok (f a, rest) := by
  rw [Reader.bind_ok h]
  rfl

/-- What the code of a message calls of its protocol.  A reader of the beginning of a field answers
`none` at the stop. -/
structure Protocol (ε : Type) where
  writeBool : Bool → Bytes
  writeByte : UInt8 → Bytes
  writeDouble : UInt64 → Bytes
  writeI16 : Int16 → Bytes
  writeI32 : Int32 → Bytes
  writeI64 : Int64 → Bytes
  writeString : Bytes → Bytes
  writeFieldBegin : WireType → Int16 → Bytes
  writeFieldStop : Bytes
  writeMapBegin : WireType → WireType → Nat → Bytes
  writeSetBegin : WireType → Nat → Bytes
  writeListBegin : WireType → Nat → Bytes
  writeMessageBegin : Bytes → MessageType → Int32 → Bytes
  readFieldBegin : Reader ε (Option (WireType × Int16))
  readI32 : Reader ε Int32
  readString : Reader ε Bytes
  readListBegin : Reader ε (WireType × Nat)
  readMessageBegin : Reader ε (Bytes × MessageType × Int32)
  skip : WireType → Reader ε Unit

namespace WireValue

def type : WireValue → WireType
  | bool _ => .bool
  | byte _ => .byte
  | double _ => .double
  | i16 _ => .i16
  | i32 _ => .i32
  | i64 _ => .i64
  | string _ => .string
  | struct _ => .struct
  | map _ _ _ => .map
  | set _ _ => .set
  | list _ _ => .list

/-- The lengths on the wire are integers of 32 bits with a sign. -/
def sizeLimit : Nat := 2 ^ 31

mutual

/-- A value that can be written: its lengths are within the limit, and its elements have the type
that is written before them. -/
def Fits : WireValue → Prop
  | bool _ => True
  | byte _ => True
  | double _ => True
  | i16 _ => True
  | i32 _ => True
  | i64 _ => True
  | string s => s.length < sizeLimit
  | struct fields => FitFields fields
  | map key value entries => entries.length < sizeLimit ∧ FitEntries key value entries
  | set elem elems => elems.length < sizeLimit ∧ FitElems elem elems
  | list elem elems => elems.length < sizeLimit ∧ FitElems elem elems

def FitFields : List (Int16 × WireValue) → Prop
  | [] => True
  | (_, v) :: fields => v.Fits ∧ FitFields fields

def FitElems (elem : WireType) : List WireValue → Prop
  | [] => True
  | v :: elems => (v.type = elem ∧ v.Fits) ∧ FitElems elem elems

def FitEntries (key value : WireType) : List (WireValue × WireValue) → Prop
  | [] => True
  | (k, v) :: entries =>
    ((k.type = key ∧ k.Fits) ∧ v.type = value ∧ v.Fits) ∧ FitEntries key value entries

end

theorem FitElems.of_mem {elem : WireType} {elems : List WireValue} (fit : FitElems elem elems)
    {v : WireValue} (mem : v ∈ elems) : v.type = elem ∧ v.Fits := by
  induction elems with
  | nil => cases mem
  | cons w elems ih =>
    rcases List.mem_cons.mp mem with rfl | mem
    · exact fit.1
    · exact ih fit.2 mem

theorem FitFields.of_mem {fields : List (Int16 × WireValue)} (fit : FitFields fields)
    {f : Int16 × WireValue} (mem : f ∈ fields) : f.2.Fits := by
  induction fields with
  | nil => cases mem
  | cons g fields ih =>
    rcases List.mem_cons.mp mem with rfl | mem
    · exact fit.1
    · exact ih fit.2 mem

section Write

variable {ε : Type} (p : Protocol ε)

mutual

def write : WireValue → Bytes
  | bool b => p.writeBool b
  | byte n => p.writeByte n
  | double bits => p.writeDouble bits
  | i16 n => p.writeI16 n
  | i32 n => p.writeI32 n
  | i64 n => p.writeI64 n
  | string s => p.writeString s
  | struct fields => writeFields fields
  | map key value entries => p.writeMapBegin key value entries.length ++ writeEntries entries
  | set elem elems => p.writeSetBegin elem elems.length ++ writeElems elems
  | list elem elems => p.writeListBegin elem elems.length ++ writeElems elems

def writeFields : List (Int16 × WireValue) → Bytes
  | [] => p.writeFieldStop
  | (id, v) :: fields => p.writeFieldBegin v.type id ++ (v.write ++ writeFields fields)

def writeElems : List WireValue → Bytes
  | [] => []
  | v :: elems => v.write ++ writeElems elems

def writeEntries : List (WireValue × WireValue) → Bytes
  | [] => []
  | (k, v) :: entries => k.write ++ (v.write ++ writeEntries entries)

end

end Write

end WireValue

/-- The readers of the protocol read what its writers write. -/
structure Protocol.Lawful {ε : Type} (p : Protocol ε) : Prop where
  fieldBegin : ∀ ty id rest,
    p.readFieldBegin (p.writeFieldBegin ty id ++ rest) = .ok (some (ty, id), rest)
  fieldStop : ∀ rest, p.readFieldBegin (p.writeFieldStop ++ rest) = .ok (none, rest)
  i32 : ∀ n rest, p.readI32 (p.writeI32 n ++ rest) = .ok (n, rest)
  string : ∀ s rest, s.length < WireValue.sizeLimit →
    p.readString (p.writeString s ++ rest) = .ok (s, rest)
  listBegin : ∀ ty n rest, n < WireValue.sizeLimit →
    p.readListBegin (p.writeListBegin ty n ++ rest) = .ok ((ty, n), rest)
  messageBegin : ∀ name mtype seqid rest, name.length < WireValue.sizeLimit →
    p.readMessageBegin (p.writeMessageBegin name mtype seqid ++ rest) =
      .ok ((name, mtype, seqid), rest)
  skip : ∀ (v : WireValue) rest, v.Fits → p.skip v.type (v.write p ++ rest) = .ok ((), rest)

namespace Protocol

variable {ε : Type} {p : Protocol ε}

/-- Were a stop no bytes at all, every field would be one. -/
theorem Lawful.fieldStop_ne (lawful : p.Lawful) : p.writeFieldStop ≠ [] := by
  intro empty
  have stop := lawful.fieldStop (p.writeFieldBegin .bool 0 ++ [])
  rw [empty, List.nil_append, lawful.fieldBegin] at stop
  cases stop

theorem Lawful.fieldBegin_ne (lawful : p.Lawful) (ty : WireType) (id : Int16) :
    p.writeFieldBegin ty id ≠ [] := by
  intro empty
  have begins := lawful.fieldBegin ty id (p.writeFieldStop ++ [])
  rw [empty, List.nil_append, lawful.fieldStop] at begins
  cases begins

end Protocol

end Lib
