import ABDyeing.Lib.BinaryProtocol
import ABDyeing.Thrift.Service

/-! A lawful runtime over the binary protocol.  An application exception is a struct of its message
and its type. -/

namespace ABDyeing

open Lib

def ApplicationError.toInt32 : ApplicationError → Int32
  | .unknown => 0
  | .unknownMethod => 1
  | .missingResult => 5

def ApplicationError.ofInt32 (n : Int32) : ApplicationError :=
  if n = 1 then .unknownMethod else if n = 5 then .missingResult else .unknown

namespace TApplicationException

variable (p : TProtocol)

def fields : List (FieldCase TException TApplicationException) :=
  [⟨1, .string, fun this => return { this with message := ← p.readString }⟩,
   ⟨2, .i32, fun this => return { this with type := .ofInt32 (← p.readI32) }⟩]

def read : TReader TApplicationException := p.readRecord .invalidData (fields p) [] ⟨.unknown, []⟩

def write (this : TApplicationException) : Bytes :=
  p.writeStruct
    [⟨.string, 1, p.writeString this.message⟩, ⟨.i32, 2, p.writeI32 this.type.toInt32⟩]

theorem read_write {p : TProtocol} (lawful : p.Lawful) {x : TApplicationException}
    (fits : StringFits x.message) (rest : Bytes) : read p (x.write p ++ rest) = .ok (x, rest) := by
  obtain ⟨type, message⟩ := x
  have first (rest : Bytes) := Reader.map_ok (lawful.string message rest fits)
    fun message => TApplicationException.mk .unknown message
  have second (rest : Bytes) := Reader.map_ok (lawful.i32 type.toInt32 rest)
    fun n => TApplicationException.mk (.ofInt32 n) message
  have same : ApplicationError.ofInt32 type.toInt32 = type := by cases type <;> rfl
  rw [same] at second
  exact lawful.readRecord_writeStruct (.read rfl first (.read rfl second (.stop _))) (by simp) rest

end TApplicationException

def binaryRuntime : TRuntime where
  toProtocol := binaryProtocol .invalidData
  writeApplicationException x := x.write (binaryProtocol .invalidData)
  readApplicationException := TApplicationException.read (binaryProtocol .invalidData)
  process dispatchCall := do
    let (fname, mtype, seqid) ← (binaryProtocol .invalidData).readMessageBegin
    if mtype = .call ∨ mtype = .oneway then dispatchCall fname seqid
    else StateT.lift (.error (.exception (.runtime (str "received invalid message type"))))

theorem binaryRuntime_lawful : binaryRuntime.Lawful where
  protocol := binaryProtocol_lawful TException.invalidData
  applicationException _ rest fits :=
    TApplicationException.read_write (binaryProtocol_lawful TException.invalidData) fits rest
  process dispatchCall name seqid s fits := by
    have begins :=
      (binaryProtocol_lawful TException.invalidData).messageBegin name .call seqid s fits
    exact (Reader.bind_ok begins _).trans (congrFun (if_pos (.inl rfl)) s)

end ABDyeing
