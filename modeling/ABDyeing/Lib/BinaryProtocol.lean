import Mathlib.Tactic.Ring
import ABDyeing.Lib.Wire

/-! A lawful protocol: types are written as single bytes, numbers in their full width with the
highest byte first, and lengths before what they are the lengths of. -/

namespace Lib

namespace BinaryProtocol

/-- The low `k` bytes of a number. -/
def bigEndian : Nat → Nat → Bytes
  | 0, _ => []
  | k + 1, n => UInt8.ofNat (n / 256 ^ k) :: bigEndian k n

def fromBigEndian (s : Bytes) : Nat := s.foldl (fun n c => 256 * n + c.toNat) 0

def typeCode : WireType → UInt8
  | .bool => 2
  | .byte => 3
  | .double => 4
  | .i16 => 6
  | .i32 => 8
  | .i64 => 10
  | .string => 11
  | .struct => 12
  | .map => 13
  | .set => 14
  | .list => 15

def typeOf (c : UInt8) : Option WireType :=
  [.bool, .byte, .double, .i16, .i32, .i64, .string, .struct, .map, .set, .list].find?
    fun ty => decide (typeCode ty = c)

def messageCode : MessageType → Nat
  | .call => 1
  | .reply => 2
  | .exception => 3
  | .oneway => 4

def messageOf (n : Nat) : Option MessageType :=
  [.call, .reply, .exception, .oneway].find? fun ty => decide (messageCode ty = n)

variable {ε : Type} (bad : ε)

def take (k : Nat) : Reader ε Bytes := fun s =>
  if k ≤ s.length then .ok (s.take k, s.drop k) else .error (.exception bad)

def number (k : Nat) : Reader ε Nat := do
  let s ← take bad k
  return fromBigEndian s

/-- A length, which must not be negative. -/
def size : Reader ε Nat := fun s => do
  let (n, rest) ← number bad 4 s
  if n < WireValue.sizeLimit then return (n, rest) else .error (.exception bad)

def wireType : Reader ε WireType := fun s => do
  let (n, rest) ← number bad 1 s
  match typeOf (UInt8.ofNat n) with
  | some ty => return (ty, rest)
  | none => .error (.exception bad)

def string : Reader ε Bytes := do
  let n ← size bad
  take bad n

def fieldBegin : Reader ε (Option (WireType × Int16)) := fun s =>
  if s.head? = some 0 then return (none, s.tail)
  else do
    let (ty, rest) ← wireType bad s
    let (n, rest) ← number bad 2 rest
    return (some (ty, (UInt16.ofNat n).toInt16), rest)

def sized : Reader ε (WireType × Nat) := do
  let ty ← wireType bad
  let n ← size bad
  return (ty, n)

def messageBegin : Reader ε (Bytes × MessageType × Int32) := fun s => do
  let (version, rest) ← number bad 2 s
  let (code, rest) ← number bad 2 rest
  match if version = 0x8001 then messageOf code else none with
  | none => .error (.exception bad)
  | some mtype => do
    let (name, rest) ← string bad rest
    let (n, rest) ← number bad 4 rest
    return ((name, mtype, (UInt32.ofNat n).toInt32), rest)

/-- What is still to be skipped. -/
inductive Work
  | value (ty : WireType)
  | fields
  | elems (ty : WireType) (n : Nat)
  | entries (key value : WireType) (n : Nat)

/-- One step of skipping: what a piece of work is replaced by. -/
def skipStep : Work → Reader ε (List Work)
  | .value .bool => do let _ ← take bad 1; return []
  | .value .byte => do let _ ← take bad 1; return []
  | .value .double => do let _ ← take bad 8; return []
  | .value .i16 => do let _ ← take bad 2; return []
  | .value .i32 => do let _ ← take bad 4; return []
  | .value .i64 => do let _ ← take bad 8; return []
  | .value .string => do let _ ← string bad; return []
  | .value .struct => return [.fields]
  | .value .map => do
    let key ← wireType bad
    let (value, n) ← sized bad
    return [.entries key value n]
  | .value .set => do let (ty, n) ← sized bad; return [.elems ty n]
  | .value .list => do let (ty, n) ← sized bad; return [.elems ty n]
  | .fields => do
    match ← fieldBegin bad with
    | none => return []
    | some (ty, _) => return [.value ty, .fields]
  | .elems _ 0 => return []
  | .elems ty (n + 1) => return [.value ty, .elems ty n]
  | .entries _ _ 0 => return []
  | .entries key value (n + 1) => return [.value key, .value value, .entries key value n]

def skipAll : Nat → List Work → Reader ε Unit
  | _, [] => return ()
  | 0, _ :: _ => fun _ => .error .undefined
  | fuel + 1, w :: work => do
    let new ← skipStep bad w
    skipAll fuel (new ++ work)

end BinaryProtocol

open BinaryProtocol in
/-- The protocol; `bad` is what its readers throw. -/
def binaryProtocol {ε : Type} (bad : ε) : Protocol ε where
  writeBool b := [if b then 1 else 0]
  writeByte n := [n]
  writeDouble bits := bigEndian 8 bits.toNat
  writeI16 n := bigEndian 2 n.toUInt16.toNat
  writeI32 n := bigEndian 4 n.toUInt32.toNat
  writeI64 n := bigEndian 8 n.toUInt64.toNat
  writeString s := bigEndian 4 s.length ++ s
  writeFieldBegin ty id := typeCode ty :: bigEndian 2 id.toUInt16.toNat
  writeFieldStop := [0]
  writeMapBegin key value n := typeCode key :: typeCode value :: bigEndian 4 n
  writeSetBegin ty n := typeCode ty :: bigEndian 4 n
  writeListBegin ty n := typeCode ty :: bigEndian 4 n
  writeMessageBegin name mtype seqid :=
    bigEndian 2 0x8001 ++ bigEndian 2 (messageCode mtype) ++ (bigEndian 4 name.length ++ name) ++
      bigEndian 4 seqid.toUInt32.toNat
  readFieldBegin := fieldBegin bad
  readI32 := do
    let n ← number bad 4
    return (UInt32.ofNat n).toInt32
  readString := string bad
  readListBegin := sized bad
  readMessageBegin := messageBegin bad
  skip ty := fun s => skipAll bad (3 * s.length) [.value ty] s

namespace BinaryProtocol

variable {ε : Type} (bad : ε)

@[simp] theorem length_bigEndian (k n : Nat) : (bigEndian k n).length = k := by
  induction k with
  | zero => rfl
  | succ k ih => rw [bigEndian, List.length_cons, ih]

theorem foldl_bigEndian (k n a : Nat) :
    (bigEndian k n).foldl (fun n c => 256 * n + c.toNat) a = a * 256 ^ k + n % 256 ^ k := by
  induction k generalizing a with
  | zero => simp [bigEndian, Nat.mod_one]
  | succ k ih =>
    have high : (UInt8.ofNat (n / 256 ^ k)).toNat = n / 256 ^ k % 256 := UInt8.toNat_ofNat' ..
    rw [bigEndian, List.foldl_cons, ih, high, pow_succ, Nat.mod_mul]
    ring

theorem take_append (s rest : Bytes) : take bad s.length (s ++ rest) = .ok (s, rest) := by
  rw [take, if_pos (by simp), List.take_left, List.drop_left]

theorem number_bigEndian {k n : Nat} (h : n < 256 ^ k) (rest : Bytes) :
    number bad k (bigEndian k n ++ rest) = .ok (n, rest) := by
  have bytes := take_append bad (bigEndian k n) rest
  rw [length_bigEndian] at bytes
  rw [number, Reader.bind_ok bytes, fromBigEndian, foldl_bigEndian, Nat.zero_mul, Nat.zero_add,
    Nat.mod_eq_of_lt h]
  rfl

theorem size_bigEndian {n : Nat} (h : n < WireValue.sizeLimit) (rest : Bytes) :
    size bad (bigEndian 4 n ++ rest) = .ok (n, rest) := by
  have bound : n < 256 ^ 4 := h.trans (by decide)
  simp only [size, number_bigEndian bad bound, bind, Except.bind, if_pos h]
  rfl

theorem wireType_code (ty : WireType) (rest : Bytes) :
    wireType bad (typeCode ty :: rest) = .ok (ty, rest) := by
  cases ty <;> rfl

theorem string_write {s : Bytes} (h : s.length < WireValue.sizeLimit) (rest : Bytes) :
    string bad (bigEndian 4 s.length ++ (s ++ rest)) = .ok (s, rest) := by
  rw [string, Reader.bind_ok (size_bigEndian bad h _), take_append]

theorem fieldBegin_write (ty : WireType) (id : Int16) (rest : Bytes) :
    fieldBegin bad (typeCode ty :: (bigEndian 2 id.toUInt16.toNat ++ rest)) =
      .ok (some (ty, id), rest) := by
  have other : typeCode ty ≠ 0 := by cases ty <;> decide
  have bound : id.toUInt16.toNat < 256 ^ 2 := id.toUInt16.toNat_lt
  rw [fieldBegin, if_neg (by simpa using other), wireType_code]
  simp only [bind, Except.bind, number_bigEndian bad bound]
  simp [pure, Except.pure]

theorem fieldBegin_stop (rest : Bytes) : fieldBegin bad (0 :: rest) = .ok (none, rest) := rfl

theorem sized_write (ty : WireType) {n : Nat} (h : n < WireValue.sizeLimit) (rest : Bytes) :
    sized bad (typeCode ty :: (bigEndian 4 n ++ rest)) = .ok ((ty, n), rest) := by
  rw [sized, Reader.bind_ok (wireType_code bad ty _), Reader.bind_ok (size_bigEndian bad h _)]
  rfl

theorem messageBegin_write (mtype : MessageType) {name : Bytes}
    (h : name.length < WireValue.sizeLimit) (seqid : Int32) (rest : Bytes) :
    messageBegin bad (bigEndian 2 0x8001 ++ (bigEndian 2 (messageCode mtype) ++
      (bigEndian 4 name.length ++ (name ++ (bigEndian 4 seqid.toUInt32.toNat ++ rest))))) =
      .ok ((name, mtype, seqid), rest) := by
  have version : 0x8001 < 256 ^ 2 := by decide
  have small : messageCode mtype < 256 ^ 2 := by cases mtype <;> decide
  have bound : seqid.toUInt32.toNat < 256 ^ 4 := seqid.toUInt32.toNat_lt
  have code : messageOf (messageCode mtype) = some mtype := by cases mtype <;> rfl
  simp only [messageBegin, number_bigEndian bad version, number_bigEndian bad small, bind,
    Except.bind, if_pos, code, string_write bad h, number_bigEndian bad bound]
  simp [pure, Except.pure]

section Skip

mutual

/-- The steps that skipping a value takes. -/
def steps : WireValue → Nat
  | .struct fields => stepsFields fields + 1
  | .map _ _ entries => stepsEntries entries + 1
  | .set _ elems => stepsElems elems + 1
  | .list _ elems => stepsElems elems + 1
  | _ => 1

def stepsFields : List (Int16 × WireValue) → Nat
  | [] => 1
  | (_, v) :: fields => steps v + stepsFields fields + 1

def stepsElems : List WireValue → Nat
  | [] => 1
  | v :: elems => steps v + stepsElems elems + 1

def stepsEntries : List (WireValue × WireValue) → Nat
  | [] => 1
  | (k, v) :: entries => steps k + steps v + stepsEntries entries + 1

end

mutual

theorem steps_le (v : WireValue) : steps v + 1 ≤ 3 * (v.write (binaryProtocol bad)).length := by
  cases v with
  | struct fields =>
    have := stepsFields_le fields
    simp only [steps, WireValue.write]
    omega
  | map key value entries =>
    have := stepsEntries_le entries
    simp only [steps, WireValue.write, binaryProtocol, List.length_append, List.length_cons]
    simp only [binaryProtocol] at this
    omega
  | set elem elems =>
    have := stepsElems_le elems
    simp only [steps, WireValue.write, binaryProtocol, List.length_append, List.length_cons]
    simp only [binaryProtocol] at this
    omega
  | list elem elems =>
    have := stepsElems_le elems
    simp only [steps, WireValue.write, binaryProtocol, List.length_append, List.length_cons]
    simp only [binaryProtocol] at this
    omega
  | _ =>
    simp only [steps, WireValue.write, binaryProtocol, List.length_append, List.length_cons,
      length_bigEndian, List.length_nil]
    omega

theorem stepsFields_le (fields : List (Int16 × WireValue)) :
    stepsFields fields + 2 ≤ 3 * (WireValue.writeFields (binaryProtocol bad) fields).length := by
  match fields with
  | [] => exact le_rfl
  | (id, v) :: fields =>
    have first := steps_le v
    have later := stepsFields_le fields
    simp only [stepsFields, WireValue.writeFields, List.length_append]
    omega

theorem stepsElems_le (elems : List WireValue) :
    stepsElems elems ≤ 3 * (WireValue.writeElems (binaryProtocol bad) elems).length + 1 := by
  match elems with
  | [] => exact le_rfl
  | v :: elems =>
    have first := steps_le v
    have later := stepsElems_le elems
    simp only [stepsElems, WireValue.writeElems, List.length_append]
    omega

theorem stepsEntries_le (entries : List (WireValue × WireValue)) :
    stepsEntries entries ≤
      3 * (WireValue.writeEntries (binaryProtocol bad) entries).length + 1 := by
  match entries with
  | [] => exact le_rfl
  | (k, v) :: entries =>
    have key := steps_le k
    have value := steps_le v
    have later := stepsEntries_le entries
    simp only [stepsEntries, WireValue.writeEntries, List.length_append]
    omega

end

theorem skipAll_step {w : Work} {s rest : Bytes} {new : List Work}
    (h : skipStep bad w s = .ok (new, rest)) (n fuel : Nat) (work : List Work) :
    skipAll bad (n + 1 + fuel) (w :: work) s = skipAll bad (n + fuel) (new ++ work) rest := by
  rw [Nat.add_right_comm, skipAll, Reader.bind_ok h]

theorem skipStep_take {k : Nat} (s rest : Bytes) (h : s.length = k) :
    (do let _ ← take bad k; return [] : Reader ε (List Work)) (s ++ rest) = .ok ([], rest) := by
  rw [← h, Reader.bind_ok (take_append bad s rest)]
  rfl

mutual

theorem skipAll_value (v : WireValue) (fits : v.Fits) (fuel : Nat) (work : List Work)
    (rest : Bytes) :
    skipAll bad (steps v + fuel) (.value v.type :: work) (v.write (binaryProtocol bad) ++ rest) =
      skipAll bad fuel work rest := by
  have scalar (s : Bytes) (ty : WireType)
      (h : skipStep bad (.value ty) (s ++ rest) = .ok ([], rest)) :
      skipAll bad (1 + fuel) (.value ty :: work) (s ++ rest) = skipAll bad fuel work rest := by
    rw [← Nat.zero_add 1, skipAll_step bad h, Nat.zero_add, List.nil_append]
  cases v with
  | struct fields =>
    have first : skipStep bad (.value .struct) = pure [.fields] := rfl
    rw [WireValue.type, WireValue.write, steps, skipAll_step bad (by rw [first]; rfl)]
    exact skipAll_fields fields fits fuel work rest
  | map key value entries =>
    have first (rest : Bytes) : skipStep bad (.value .map)
        (typeCode key :: typeCode value :: (bigEndian 4 entries.length ++ rest)) =
          .ok ([.entries key value entries.length], rest) := by
      rw [skipStep, Reader.bind_ok (wireType_code bad key _),
        Reader.bind_ok (sized_write bad value fits.1 _)]
      rfl
    rw [WireValue.type, WireValue.write, steps, List.append_assoc]
    exact (skipAll_step bad (first _) _ _ _).trans
      (skipAll_entries key value entries fits.2 fuel work rest)
  | set elem elems =>
    have first (rest : Bytes) : skipStep bad (.value .set)
        (typeCode elem :: (bigEndian 4 elems.length ++ rest)) =
          .ok ([.elems elem elems.length], rest) := by
      rw [skipStep, Reader.bind_ok (sized_write bad elem fits.1 _)]
      rfl
    rw [WireValue.type, WireValue.write, steps, List.append_assoc]
    exact (skipAll_step bad (first _) _ _ _).trans
      (skipAll_elems elem elems fits.2 fuel work rest)
  | list elem elems =>
    have first (rest : Bytes) : skipStep bad (.value .list)
        (typeCode elem :: (bigEndian 4 elems.length ++ rest)) =
          .ok ([.elems elem elems.length], rest) := by
      rw [skipStep, Reader.bind_ok (sized_write bad elem fits.1 _)]
      rfl
    rw [WireValue.type, WireValue.write, steps, List.append_assoc]
    exact (skipAll_step bad (first _) _ _ _).trans
      (skipAll_elems elem elems fits.2 fuel work rest)
  | string s =>
    refine scalar _ _ ?_
    simp only [WireValue.type, WireValue.write, binaryProtocol, List.append_assoc]
    rw [skipStep, Reader.bind_ok (string_write bad fits rest)]
    rfl
  | bool b => exact scalar _ _ (skipStep_take bad _ rest rfl)
  | byte n => exact scalar _ _ (skipStep_take bad _ rest rfl)
  | double bits => exact scalar _ _ (skipStep_take bad _ rest (length_bigEndian _ _))
  | i16 n => exact scalar _ _ (skipStep_take bad _ rest (length_bigEndian _ _))
  | i32 n => exact scalar _ _ (skipStep_take bad _ rest (length_bigEndian _ _))
  | i64 n => exact scalar _ _ (skipStep_take bad _ rest (length_bigEndian _ _))

theorem skipAll_fields (fields : List (Int16 × WireValue)) (fit : WireValue.FitFields fields)
    (fuel : Nat) (work : List Work) (rest : Bytes) :
    skipAll bad (stepsFields fields + fuel) (.fields :: work)
      (WireValue.writeFields (binaryProtocol bad) fields ++ rest) = skipAll bad fuel work rest := by
  match fields, fit with
  | [], _ =>
    have stop : skipStep bad .fields (0 :: rest) = .ok ([], rest) := by
      rw [skipStep, Reader.bind_ok (fieldBegin_stop bad rest)]
      rfl
    exact (skipAll_step bad stop 0 fuel work).trans (by rw [Nat.zero_add, List.nil_append])
  | (id, v) :: fields, ⟨fits, fit⟩ =>
    have first (rest : Bytes) : skipStep bad .fields
        (typeCode v.type :: (bigEndian 2 id.toUInt16.toNat ++ rest)) =
          .ok ([.value v.type, .fields], rest) := by
      rw [skipStep, Reader.bind_ok (fieldBegin_write bad v.type id rest)]
      rfl
    rw [stepsFields, WireValue.writeFields, List.append_assoc, List.append_assoc]
    refine (skipAll_step bad (first _) _ _ _).trans ?_
    rw [Nat.add_assoc]
    exact (skipAll_value v fits _ _ _).trans (skipAll_fields fields fit fuel work rest)

theorem skipAll_elems (elem : WireType) (elems : List WireValue)
    (fit : WireValue.FitElems elem elems) (fuel : Nat) (work : List Work) (rest : Bytes) :
    skipAll bad (stepsElems elems + fuel) (.elems elem elems.length :: work)
      (WireValue.writeElems (binaryProtocol bad) elems ++ rest) = skipAll bad fuel work rest := by
  match elems, fit with
  | [], _ =>
    have stop : skipStep bad (.elems elem 0) rest = .ok ([], rest) := rfl
    exact (skipAll_step bad stop 0 fuel work).trans (by rw [Nat.zero_add, List.nil_append])
  | v :: elems, ⟨⟨type, fits⟩, fit⟩ =>
    have first (rest : Bytes) : skipStep bad (.elems elem (elems.length + 1)) rest =
        .ok ([.value v.type, .elems elem elems.length], rest) := by
      rw [type]
      rfl
    rw [stepsElems, WireValue.writeElems, List.append_assoc, List.length_cons]
    refine (skipAll_step bad (first _) _ _ _).trans ?_
    rw [Nat.add_assoc]
    exact (skipAll_value v fits _ _ _).trans (skipAll_elems elem elems fit fuel work rest)

theorem skipAll_entries (key value : WireType) (entries : List (WireValue × WireValue))
    (fit : WireValue.FitEntries key value entries) (fuel : Nat) (work : List Work)
    (rest : Bytes) :
    skipAll bad (stepsEntries entries + fuel) (.entries key value entries.length :: work)
      (WireValue.writeEntries (binaryProtocol bad) entries ++ rest) =
        skipAll bad fuel work rest := by
  match entries, fit with
  | [], _ =>
    have stop : skipStep bad (.entries key value 0) rest = .ok ([], rest) := rfl
    exact (skipAll_step bad stop 0 fuel work).trans (by rw [Nat.zero_add, List.nil_append])
  | (k, v) :: entries, ⟨⟨⟨keyType, keyFits⟩, valueType, valueFits⟩, fit⟩ =>
    have first (rest : Bytes) : skipStep bad (.entries key value (entries.length + 1)) rest =
        .ok ([.value k.type, .value v.type, .entries key value entries.length], rest) := by
      rw [keyType, valueType]
      rfl
    rw [stepsEntries, WireValue.writeEntries, List.append_assoc, List.append_assoc,
      List.length_cons]
    refine (skipAll_step bad (first _) _ _ _).trans ?_
    rw [Nat.add_assoc, Nat.add_assoc]
    exact (skipAll_value k keyFits _ _ _).trans ((skipAll_value v valueFits _ _ _).trans
      (skipAll_entries key value entries fit fuel work rest))

end

end Skip

end BinaryProtocol

open BinaryProtocol in
theorem binaryProtocol_lawful {ε : Type} (bad : ε) : (binaryProtocol bad).Lawful where
  fieldBegin ty id rest := fieldBegin_write bad ty id rest
  fieldStop rest := fieldBegin_stop bad rest
  i32 n rest := by
    have bound : n.toUInt32.toNat < 256 ^ 4 := n.toUInt32.toNat_lt
    have read := Reader.bind_ok (number_bigEndian bad bound rest)
      fun n => (return (UInt32.ofNat n).toInt32 : Reader ε Int32)
    rw [UInt32.ofNat_toNat, Int32.toInt32_toUInt32] at read
    exact read
  string s rest h := by
    have read := string_write bad h rest
    rw [← List.append_assoc] at read
    exact read
  listBegin ty n rest h := sized_write bad ty h rest
  messageBegin name mtype seqid rest h := by
    have read := messageBegin_write bad mtype h seqid rest
    simp only [← List.append_assoc] at read
    simpa only [binaryProtocol, ← List.append_assoc] using read
  skip v rest fits := by
    have bound := steps_le bad v
    obtain ⟨more, enough⟩ := Nat.exists_eq_add_of_le (show steps v ≤
      3 * (v.write (binaryProtocol bad) ++ rest).length by
        rw [List.length_append]
        omega)
    change skipAll bad (3 * (v.write (binaryProtocol bad) ++ rest).length) [.value v.type] _ = _
    rw [enough, skipAll_value bad v fits]
    cases more <;> rfl

end Lib
