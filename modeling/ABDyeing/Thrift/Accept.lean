import ABDyeing.Thrift.RoundTrip

/-! What the readers of the requests make of any well formed fields, whoever wrote them: fields that
they do not know are skipped, of those that come twice the last one counts, and a field that is
missing is an error. -/

namespace ABDyeing

open Lib

variable {p : TProtocol}

namespace ABDyeingRequest

/-- A request of these fields, if none is missing. -/
def ofFields (values : List (Int16 × WireValue)) : Option ABDyeingRequest := do
  let app ← lastOf (stringAt 1) values
  let appVer ← lastOf (stringAt 2) values
  let types ← lastOf (stringsAt 3) values
  return ⟨app, appVer, types⟩

/-- The request when one more field has been read. -/
def update (req : ABDyeingRequest) (f : Int16 × WireValue) : ABDyeingRequest :=
  ⟨(stringAt 1 f).getD req.app, (stringAt 2 f).getD req.appVer, (stringsAt 3 f).getD req.types⟩

theorem find_isSome {type : WireType} {n : Int16} :
    (FieldCase.find (fields p) type n).isSome ↔
      (n = 1 ∧ type = .string) ∨ (n = 2 ∧ type = .string) ∨ (n = 3 ∧ type = .list) := by
  rw [FieldCase.find, List.find?_isSome]
  simp [fields]
  grind

theorem reads (lawful : p.Lawful) {values : List (Int16 × WireValue)}
    (fit : WireValue.FitFields values) (strings : StringLists 3 values) :
    ∀ f ∈ values, ∀ field, FieldCase.find (fields p) f.2.type f.1 = some field →
      ∀ req rest, field.read req (f.2.write p ++ rest) = .ok (update req f, rest) := by
  rintro ⟨n, v⟩ mem field found req rest
  have fits := fit.of_mem mem
  obtain ⟨known, rfl, type⟩ := FieldCase.of_find found
  simp only [fields, List.mem_cons, List.not_mem_nil, or_false] at known
  rcases known with rfl | rfl | rfl <;> cases v <;> cases type
  · exact Reader.map_ok (lawful.string _ rest fits) _
  · exact Reader.map_ok (lawful.string _ rest fits) _
  · exact Reader.map_ok (readStrings_text lawful fits (strings _ _ mem) rest) _

theorem app_sets : FieldCase.Sets (fields p) update 1 (stringAt 1) app where
  known f := by
    rw [stringAt_isSome, find_isSome]
    grind
  update _ _ := rfl

theorem appVer_sets : FieldCase.Sets (fields p) update 2 (stringAt 2) appVer where
  known f := by
    rw [stringAt_isSome, find_isSome]
    grind
  update _ _ := rfl

theorem types_sets : FieldCase.Sets (fields p) update 3 (stringsAt 3) types where
  known f := by
    rw [stringsAt_isSome, find_isSome]
    grind
  update _ _ := rfl

theorem read_fields (lawful : p.Lawful) {values : List (Int16 × WireValue)}
    (fit : WireValue.FitFields values) (strings : StringLists 3 values) (this : ABDyeingRequest)
    (rest : Bytes) :
    this.read p ((WireValue.struct values).write p ++ rest) =
      match ofFields values with
      | some req => .ok (req, rest)
      | none => .error (.exception .invalidData) := by
  have trace := lawful.fieldsRead fit (reads lawful fit strings) this
  have req : (FieldCase.known (fields p) values).foldl update this =
      ⟨(lastOf (stringAt 1) values).getD this.app, (lastOf (stringAt 2) values).getD this.appVer,
        (lastOf (stringsAt 3) values).getD this.types⟩ := by
    rw [← app_sets.last values this, ← appVer_sets.last values this, ← types_sets.last values this]
  rw [WireValue.write, WireValue.writeFields_eq, ABDyeingRequest.read,
    Protocol.readRecord_of_fieldsRead lawful trace, req, ofFields]
  simp only [List.all_eq_true, List.contains_iff_mem, List.forall_mem_cons, app_sets.mem_iff,
    appVer_sets.mem_iff, types_sets.mem_iff]
  cases lastOf (stringAt 1) values <;> cases lastOf (stringAt 2) values <;>
    cases lastOf (stringsAt 3) values <;> simp

end ABDyeingRequest

namespace ABDyeingLanRequest

def ofFields (values : List (Int16 × WireValue)) :
    Option ABDyeingLanRequest := do
  let app ← lastOf (stringAt 1) values
  let appVer ← lastOf (stringAt 2) values
  let appLan ← lastOf (stringAt 3) values
  let types ← lastOf (stringsAt 4) values
  return ⟨app, appVer, appLan, types⟩

def update (req : ABDyeingLanRequest) (f : Int16 × WireValue) : ABDyeingLanRequest :=
  ⟨(stringAt 1 f).getD req.app, (stringAt 2 f).getD req.appVer, (stringAt 3 f).getD req.appLan,
    (stringsAt 4 f).getD req.types⟩

theorem find_isSome {type : WireType} {n : Int16} :
    (FieldCase.find (fields p) type n).isSome ↔
      (n = 1 ∧ type = .string) ∨ (n = 2 ∧ type = .string) ∨
        (n = 3 ∧ type = .string) ∨ (n = 4 ∧ type = .list) := by
  rw [FieldCase.find, List.find?_isSome]
  simp [fields]
  grind

theorem reads (lawful : p.Lawful) {values : List (Int16 × WireValue)}
    (fit : WireValue.FitFields values) (strings : StringLists 4 values) :
    ∀ f ∈ values, ∀ field, FieldCase.find (fields p) f.2.type f.1 = some field →
      ∀ req rest, field.read req (f.2.write p ++ rest) = .ok (update req f, rest) := by
  rintro ⟨n, v⟩ mem field found req rest
  have fits := fit.of_mem mem
  obtain ⟨known, rfl, type⟩ := FieldCase.of_find found
  simp only [fields, List.mem_cons, List.not_mem_nil, or_false] at known
  rcases known with rfl | rfl | rfl | rfl <;> cases v <;> cases type
  · exact Reader.map_ok (lawful.string _ rest fits) _
  · exact Reader.map_ok (lawful.string _ rest fits) _
  · exact Reader.map_ok (lawful.string _ rest fits) _
  · exact Reader.map_ok (readStrings_text lawful fits (strings _ _ mem) rest) _

theorem app_sets : FieldCase.Sets (fields p) update 1 (stringAt 1) app where
  known f := by
    rw [stringAt_isSome, find_isSome]
    grind
  update _ _ := rfl

theorem appVer_sets : FieldCase.Sets (fields p) update 2 (stringAt 2) appVer where
  known f := by
    rw [stringAt_isSome, find_isSome]
    grind
  update _ _ := rfl

theorem appLan_sets : FieldCase.Sets (fields p) update 3 (stringAt 3) appLan where
  known f := by
    rw [stringAt_isSome, find_isSome]
    grind
  update _ _ := rfl

theorem types_sets : FieldCase.Sets (fields p) update 4 (stringsAt 4) types where
  known f := by
    rw [stringsAt_isSome, find_isSome]
    grind
  update _ _ := rfl

theorem read_fields (lawful : p.Lawful) {values : List (Int16 × WireValue)}
    (fit : WireValue.FitFields values) (strings : StringLists 4 values) (this : ABDyeingLanRequest)
    (rest : Bytes) :
    this.read p ((WireValue.struct values).write p ++ rest) =
      match ofFields values with
      | some req => .ok (req, rest)
      | none => .error (.exception .invalidData) := by
  have trace := lawful.fieldsRead fit (reads lawful fit strings) this
  have req : (FieldCase.known (fields p) values).foldl update this =
      ⟨(lastOf (stringAt 1) values).getD this.app, (lastOf (stringAt 2) values).getD this.appVer,
        (lastOf (stringAt 3) values).getD this.appLan,
        (lastOf (stringsAt 4) values).getD this.types⟩ := by
    rw [← app_sets.last values this, ← appVer_sets.last values this,
      ← appLan_sets.last values this, ← types_sets.last values this]
  rw [WireValue.write, WireValue.writeFields_eq, ABDyeingLanRequest.read,
    Protocol.readRecord_of_fieldsRead lawful trace, req, ofFields]
  simp only [List.all_eq_true, List.contains_iff_mem, List.forall_mem_cons, app_sets.mem_iff,
    appVer_sets.mem_iff, appLan_sets.mem_iff, types_sets.mem_iff]
  cases lastOf (stringAt 1) values <;> cases lastOf (stringAt 2) values <;>
    cases lastOf (stringAt 3) values <;> cases lastOf (stringsAt 4) values <;> simp

end ABDyeingLanRequest

section Kinds

def ABDyeingRequest.toFields (req : ABDyeingRequest) : List (Int16 × WireValue) :=
  [(1, .string req.app), (2, .string req.appVer), (3, .list .string (req.types.map .string))]

def ABDyeingLanRequest.toFields (req : ABDyeingLanRequest) : List (Int16 × WireValue) :=
  [(1, .string req.app), (2, .string req.appVer), (3, .string req.appLan),
   (4, .list .string (req.types.map .string))]

theorem writeStrings_eq (types : List Bytes) :
    p.writeList .string p.writeString types =
      (WireValue.list .string (types.map .string)).write p := by
  rw [Protocol.writeList, WireValue.write, WireValue.writeElems_eq, List.length_map,
    List.flatMap_map]
  rfl

theorem ABDyeingRequest.write_eq (req : ABDyeingRequest) :
    req.write p = (WireValue.struct req.toFields).write p := by
  rw [ABDyeingRequest.write, writeStrings_eq, WireValue.write, WireValue.writeFields_eq]
  rfl

theorem ABDyeingLanRequest.write_eq (req : ABDyeingLanRequest) :
    req.write p = (WireValue.struct req.toFields).write p := by
  rw [ABDyeingLanRequest.write, writeStrings_eq, WireValue.write, WireValue.writeFields_eq]
  rfl

theorem fitElems_strings {types : List Bytes} (fit : ListFits StringFits types) :
    (WireValue.list .string (types.map .string)).Fits := by
  obtain ⟨limit, each⟩ := fit
  refine ⟨by rwa [List.length_map], ?_⟩
  clear limit
  induction types with
  | nil => trivial
  | cons s types ih =>
    obtain ⟨first, each⟩ := List.forall_mem_cons.mp each
    exact ⟨⟨rfl, first⟩, ih each⟩

theorem ABDyeingRequest.Fits.toFields {req : ABDyeingRequest} (fits : req.Fits) :
    WireValue.FitFields req.toFields :=
  ⟨fits.app, fits.appVer, fitElems_strings fits.types, trivial⟩

theorem ABDyeingLanRequest.Fits.toFields {req : ABDyeingLanRequest} (fits : req.Fits) :
    WireValue.FitFields req.toFields :=
  ⟨fits.app, fits.appVer, fits.appLan, fitElems_strings fits.types, trivial⟩

variable (lawful : p.Lawful)

include lawful

/-- What stands under number 3 is a list, where a language is expected. -/
theorem ABDyeingLanRequest.read_other (this : ABDyeingLanRequest) {req : ABDyeingRequest}
    (fits : req.Fits) (rest : Bytes) :
    this.read p (req.write p ++ rest) = .error (.exception .invalidData) := by
  have strings : StringLists 4 req.toFields := by
    intro elem elems mem
    simp [ABDyeingRequest.toFields] at mem
  rw [req.write_eq, ABDyeingLanRequest.read_fields lawful fits.toFields strings]
  rfl

/-- What stands under number 3 is a language, where a list is expected. -/
theorem ABDyeingRequest.read_other (this : ABDyeingRequest) {req : ABDyeingLanRequest}
    (fits : req.Fits) (rest : Bytes) :
    this.read p (req.write p ++ rest) = .error (.exception .invalidData) := by
  have strings : StringLists 3 req.toFields := by
    intro elem elems mem
    simp [ABDyeingLanRequest.toFields] at mem
  rw [req.write_eq, ABDyeingRequest.read_fields lawful fits.toFields strings]
  rfl

theorem ABDyeingUidLanReqInfo.read_other (this : ABDyeingUidLanReqInfo)
    {info : ABDyeingUidReqInfo} (fits : info.Fits) (rest : Bytes) :
    this.read p (info.write p ++ rest) = .error (.exception .invalidData) := by
  have uid (rest : Bytes) := Reader.map_ok (lawful.string info.uid rest fits.uid)
    fun uid => { this with uid }
  have fails (rest : Bytes) := Reader.bind_error
    (this.uidLanInfo.read_other lawful fits.uidInfo rest)
    fun uidLanInfo => (return { this with uid := info.uid, uidLanInfo } : TReader _)
  exact Protocol.readRecord_error lawful (.read rfl uid (.stop _)) rfl fails .invalidData _ rest

theorem ABDyeingUidReqInfo.read_other (this : ABDyeingUidReqInfo)
    {info : ABDyeingUidLanReqInfo} (fits : info.Fits) (rest : Bytes) :
    this.read p (info.write p ++ rest) = .error (.exception .invalidData) := by
  have uid (rest : Bytes) := Reader.map_ok (lawful.string info.uid rest fits.uid)
    fun uid => { this with uid }
  have fails (rest : Bytes) := Reader.bind_error
    (this.uidInfo.read_other lawful fits.uidLanInfo rest)
    fun uidInfo => (return { this with uid := info.uid, uidInfo } : TReader _)
  exact Protocol.readRecord_error lawful (.read rfl uid (.stop _)) rfl fails .invalidData _ rest

theorem ABDyeingBatchLanRequest.read_other (this : ABDyeingBatchLanRequest)
    {req : ABDyeingBatchRequest} (fits : req.Fits) (filled : req.uidReqInfos ≠ [])
    (rest : Bytes) : this.read p (req.write p ++ rest) = .error (.exception .invalidData) := by
  obtain ⟨infos⟩ := req
  obtain ⟨info, infos, rfl⟩ := List.exists_cons_of_ne_nil filled
  have first := fits.each info List.mem_cons_self
  have fails (rest : Bytes) := Reader.bind_error (lawful.readList_error fits.length
    (fun rest => ABDyeingUidLanReqInfo.new.read_other lawful first rest) .struct rest)
    fun infos => (return ⟨infos⟩ : TReader ABDyeingBatchLanRequest)
  exact Protocol.readRecord_error lawful (.stop _) rfl fails .invalidData _ rest

theorem ABDyeingBatchRequest.read_other (this : ABDyeingBatchRequest)
    {req : ABDyeingBatchLanRequest} (fits : req.Fits) (filled : req.uidLanReqInfos ≠ [])
    (rest : Bytes) : this.read p (req.write p ++ rest) = .error (.exception .invalidData) := by
  obtain ⟨infos⟩ := req
  obtain ⟨info, infos, rfl⟩ := List.exists_cons_of_ne_nil filled
  have first := fits.each info List.mem_cons_self
  have fails (rest : Bytes) := Reader.bind_error (lawful.readList_error fits.length
    (fun rest => ABDyeingUidReqInfo.new.read_other lawful first rest) .struct rest)
    fun infos => (return ⟨infos⟩ : TReader ABDyeingBatchRequest)
  exact Protocol.readRecord_error lawful (.stop _) rfl fails .invalidData _ rest

end Kinds

/-- Of well formed fields in any order and number, those that do not belong to the request are
skipped and the last one of each kind counts; a request with a field missing is an error.  The
readers do not look at the type of the elements of a list, so what stands where the types do has to
be strings. -/
theorem requests_of_any_fields {p : TProtocol} (lawful : p.Lawful)
    {values : List (Int16 × WireValue)} (fit : WireValue.FitFields values) (rest : Bytes) :
    (StringLists 3 values → ∀ this : ABDyeingRequest,
      this.read p ((WireValue.struct values).write p ++ rest) =
        match ABDyeingRequest.ofFields values with
        | some req => .ok (req, rest)
        | none => .error (.exception .invalidData)) ∧
    (StringLists 4 values → ∀ this : ABDyeingLanRequest,
      this.read p ((WireValue.struct values).write p ++ rest) =
        match ABDyeingLanRequest.ofFields values with
        | some req => .ok (req, rest)
        | none => .error (.exception .invalidData)) :=
  ⟨fun strings this => this.read_fields lawful fit strings rest,
    fun strings this => this.read_fields lawful fit strings rest⟩

theorem requests_of_any_fields_binary :
    let p := binaryProtocol TException.invalidData
    let values : List (Int16 × WireValue) :=
      [(9, .i64 5), (2, .string (str "1.2")), (1, .string (str "old")),
       (3, .list .string [.string (str "biz")]), (1, .string (str "noticias")), (2, .bool true)]
    ABDyeingRequest.new.read p ((WireValue.struct values).write p) =
        .ok (⟨str "noticias", str "1.2", [str "biz"]⟩, []) ∧
      ABDyeingLanRequest.new.read p ((WireValue.struct values).write p) =
        .error (.exception .invalidData) := by
  intro p values
  have short (s : Bytes) (h : StringFits s) : (WireValue.string s).Fits := h
  have fit : WireValue.FitFields values :=
    ⟨trivial, short _ (by decide), short _ (by decide),
      ⟨by decide, ⟨rfl, short _ (by decide)⟩, trivial⟩, short _ (by decide), trivial, trivial⟩
  obtain ⟨read, readLan⟩ :=
    requests_of_any_fields (binaryProtocol_lawful TException.invalidData) fit []
  have h := read (by simp [values, StringLists, WireValue.type]) .new
  have hLan := readLan (by simp [values, StringLists]) .new
  rw [List.append_nil] at h hLan
  exact ⟨h, hLan⟩

/-- Of a list of numbers in their place each zero is read as an empty string, and nothing is
thrown. -/
example :
    let p := binaryProtocol TException.invalidData
    ABDyeingRequest.new.read p ((WireValue.struct [(1, .string (str "a")), (2, .string []),
      (3, .list .i32 [.i32 0, .i32 0])]).write p) = .ok (⟨str "a", [], [[], []]⟩, []) := by
  rfl

end ABDyeing
