import ABDyeing.Config.Lines
import ABDyeing.Lib.UnorderedMap

/-! Configurations as they are written: tags that are nested rightly, parameters, comments and blank
lines.  The parser finds at each path the parameters that are written there, the last one of a key,
however often the domain is closed and opened again. -/

namespace ABDyeing

open Lib

structure Comment where
  left : Padding
  text : Bytes
  oneLine : 10 ∉ text

/-- The blanks around the two tags of a domain. -/
structure TagPadding where
  openLeft : Padding
  openRight : Padding
  closeLeft : Padding
  closeRight : Padding

inductive Document
  | done
  | blank (pad : Padding) (rest : Document)
  | comment (c : Comment) (rest : Document)
  | param (p : ParamLine) (rest : Document)
  | domain (name : DomainName) (pad : TagPadding) (body rest : Document)

namespace Document

def lines : Document → List Bytes
  | done => []
  | blank pad rest => pad.text :: rest.lines
  | comment c rest => (c.left.text ++ str "#" ++ c.text) :: rest.lines
  | param p rest => p.line :: rest.lines
  | domain name pad body rest =>
    (pad.openLeft.text ++ openTag name.text ++ pad.openRight.text) :: body.lines ++
      (pad.closeLeft.text ++ closeTag name.text ++ pad.closeRight.text) :: rest.lines

def text (document : Document) : Bytes := [10].intercalate document.lines

/-- The parameters of the document in their order, each with the path of the domain that it stands
in directly, where the document itself stands in the domain at `path`. -/
def settings (path : List Bytes) : Document → List ((List Bytes × Bytes) × Bytes)
  | done => []
  | blank _ rest => rest.settings path
  | comment _ rest => rest.settings path
  | param p rest => ((path, p.key), trim p.value) :: rest.settings path
  | domain name _ body rest => body.settings (path ++ [name.text]) ++ rest.settings path

end Document

/-- The parameter at a path of the tree. -/
def paramOf (root : ConfigDomain) (q : List Bytes × Bytes) : Option Bytes :=
  (root.valueAt q.1).bind (Domain.param · q.2)

namespace ParseState

variable {s : ParseState} {path : List Bytes} {below : List (List Bytes)} {domain : Domain}

theorem paramOf_opening (hdomain : s.root.valueAt path = some domain) (name : Bytes)
    (q : List Bytes × Bytes) :
    paramOf (s.root.modify (.addChild name (.new name)) path) q = paramOf s.root q := by
  rw [paramOf, valueAt_opening hdomain, paramOf]
  cases s.root.valueAt q.1 with
  | some before => rfl
  | none =>
    rw [Option.none_or]
    split <;> rfl

theorem paramOf_setParamValue (hdomain : s.root.valueAt path = some domain)
    (line name value : Bytes) (q : List Bytes × Bytes) :
    paramOf (s.root.modify (.setValue fun _ =>
        { domain with lines := domain.lines ++ [line] }.setParamValue name value) path) q =
      if (path, name) = q then some value else paramOf s.root q := by
  obtain ⟨q, key⟩ := q
  simp only [paramOf, Tree.valueAt_setValue, Prod.mk.injEq]
  by_cases same : q = path
  · subst same
    rw [if_pos rfl, hdomain]
    simp only [Option.map_some, Option.bind_some, Domain.param_setParamValue, true_and,
      eq_comm (a := name)]
    rfl
  · rw [if_neg same, if_neg fun h => same h.1.symm]

/-- A parameter line sets its parameter in the domain on the top of the stack, and no other. -/
theorem Valid.assign (valid : s.Valid) (hstack : s.stack = path :: below) {line name value : Bytes}
    (nonempty : line ≠ []) (hassign : Domain.assignment line = .ok (name, value)) :
    ∃ next, s.step (.param line) = .ok next ∧ next.Valid ∧ next.stack = s.stack ∧
      ∀ q, paramOf next.root q = if (path, name) = q then some value else paramOf s.root q := by
  obtain ⟨domain, hdomain, -⟩ := valid.top hstack
  have hset : domain.setParamLine line =
      .ok ({ domain with lines := domain.lines ++ [line] }.setParamValue name value) := by
    rw [Domain.setParamLine_eq nonempty, hassign]
    rfl
  refine ⟨_, ?_, valid.param hdomain (Domain.setParamLine_name hset), rfl,
    paramOf_setParamValue hdomain line name value⟩
  rw [step_param hstack hdomain, hset]
  rfl

theorem paramOf_start (q : List Bytes × Bytes) : paramOf start.root q = none := by
  rw [paramOf, start, Config.new, Tree.valueAt_leaf]
  split <;> rfl

end ParseState

/-- The parser goes over the document and comes back to the domain it was in, and has set the
parameters of the document. -/
theorem Document.run (document : Document) {s : ParseState} (valid : s.Valid) {path : List Bytes}
    {below : List (List Bytes)} (hstack : s.stack = path :: below) :
    ∃ after, s.run (document.lines.map readConfigLine) = .ok after ∧ after.Valid ∧
      after.stack = s.stack ∧
      ∀ q, paramOf after.root q = (lastValue (document.settings path) q).or (paramOf s.root q) := by
  induction document generalizing s path below with
  | done => exact ⟨s, rfl, valid, rfl, fun q => rfl⟩
  | blank pad rest ih =>
    obtain ⟨after, hrun, hafter⟩ := ih valid hstack
    refine ⟨after, ?_, hafter⟩
    rw [lines, List.map_cons, readConfigLine_blank]
    exact hrun
  | comment c rest ih =>
    obtain ⟨after, hrun, hafter⟩ := ih valid hstack
    refine ⟨after, ?_, hafter⟩
    rw [lines, List.map_cons, readConfigLine_comment]
    exact hrun
  | param p rest ih =>
    have nonempty : p.trimmed ≠ [] := by simp [ParamLine.trimmed]
    obtain ⟨next, hstep, validNext, stackNext, hparam⟩ :=
      valid.assign hstack nonempty p.assignment
    obtain ⟨after, hrun, hvalid, hsame, hparams⟩ := ih validNext (stackNext.trans hstack)
    refine ⟨after, ?_, hvalid, hsame.trans stackNext, fun q => ?_⟩
    · rw [lines, List.map_cons, p.read, ParseState.run, hstep]
      exact hrun
    · rw [hparams, hparam, settings, lastValue_cons, Option.or_assoc]
      congr 1
      split <;> rfl
  | domain name pad body rest ihBody ihRest =>
    obtain ⟨domain, hdomain, -⟩ := valid.top hstack
    obtain ⟨inner, hinner, validInner, stackInner, paramsInner⟩ :=
      ihBody (valid.opening hstack name.text) rfl
    obtain ⟨after, hrun, validAfter, stackAfter, paramsAfter⟩ :=
      ihRest (validInner.close stackInner) hstack
    refine ⟨after, ?_, validAfter, stackAfter, fun q => ?_⟩
    · rw [lines, List.cons_append, List.map_cons, List.map_append, List.map_cons,
        readConfigLine_opening, readConfigLine_close]
      have domain := ParseState.run_domain hstack hinner validInner stackInner
      rw [name.unpadded] at domain
      exact (domain _).trans hrun
    · rw [paramsAfter, settings, lastValue_append, Option.or_assoc]
      congr 1
      rw [paramsInner, ParseState.paramOf_opening hdomain]

/-- The last line is dropped by `getline` where it is empty, and the parser skips it anyway. -/
theorem run_getlines (buffer : Bytes) (s : ParseState) :
    s.run ((getlines buffer).map readConfigLine) =
      s.run ((buffer.splitOn 10).map readConfigLine) := by
  by_cases last : (buffer.splitOn 10).getLast? = some []
  · have parts := List.dropLast_append_getLast? [] last
    have lines : getlines buffer = (buffer.splitOn 10).dropLast := if_pos last
    conv => rhs; rw [← parts, List.map_append, ParseState.run_append]
    rw [lines]
    cases s.run ((buffer.splitOn 10).dropLast.map readConfigLine) <;> rfl
  · rw [show getlines buffer = buffer.splitOn 10 from if_neg last]

theorem Padding.space_oneLine (left right : Padding) {s : Bytes} (h : 10 ∉ s) :
    10 ∉ left.text ++ s ++ right.text := by
  simp only [List.mem_append, not_or]
  exact ⟨⟨left.oneLine, h⟩, right.oneLine⟩

theorem Document.oneLine (document : Document) : ∀ line ∈ document.lines, 10 ∉ line := by
  have hash : (10 : UInt8) ∉ str "#" := by decide
  have equals : (10 : UInt8) ∉ str "=" := by decide
  have brackets : (10 : UInt8) ∉ str "[" ∧ (10 : UInt8) ∉ str "[/" ∧ (10 : UInt8) ∉ str "]" := by
    decide
  induction document with
  | done => simp [lines]
  | blank pad rest ih => exact List.forall_mem_cons.mpr ⟨pad.oneLine, ih⟩
  | comment c rest ih =>
    refine List.forall_mem_cons.mpr ⟨?_, ih⟩
    simp only [List.mem_append, not_or]
    exact ⟨⟨c.left.oneLine, hash⟩, c.oneLine⟩
  | param p rest ih =>
    refine List.forall_mem_cons.mpr ⟨?_, ih⟩
    simp only [ParamLine.line, List.mem_append, not_or]
    exact ⟨⟨⟨⟨p.left.oneLine, p.oneLine.1⟩, p.mid.oneLine⟩, equals⟩, p.oneLine.2⟩
  | domain name pad body rest ihBody ihRest =>
    rw [lines, List.cons_append, List.forall_mem_cons, List.forall_mem_append,
      List.forall_mem_cons]
    refine ⟨?_, ihBody, ?_, ihRest⟩
    all_goals
      apply Padding.space_oneLine
      simp only [openTag, closeTag, List.mem_append, not_or]
    · exact ⟨⟨brackets.1, name.oneLine⟩, brackets.2.2⟩
    · exact ⟨⟨brackets.2.1, name.oneLine⟩, brackets.2.2⟩

theorem Document.run_text (document : Document) (s : ParseState) :
    s.run ((getlines document.text).map readConfigLine) =
      s.run (document.lines.map readConfigLine) := by
  rw [run_getlines, text]
  by_cases none : document.lines = []
  · rw [none]
    rfl
  · rw [List.splitOn_intercalate 10 document.oneLine none]

/-- A document is parsed, and each parameter has the last value that the document sets. -/
theorem Document.paramAt_parseString (document : Document) :
    ∃ config, Config.parseString document.text = .ok config ∧ ∀ path key,
      config.paramAt path key = lastValue (document.settings []) (path, key) := by
  obtain ⟨after, hrun, -, hstack, hparams⟩ := document.run ParseState.valid_start rfl
  have hparse : Config.parseString document.text = .ok ⟨after.root⟩ := by
    simp only [Config.parseString, parseConfig, document.run_text, hrun, bind, Except.bind, hstack]
    rfl
  refine ⟨_, hparse, fun path key => ?_⟩
  have atPath := hparams (path, key)
  rwa [ParseState.paramOf_start, Option.or_none] at atPath

/-- A document is parsed, and a path is answered with the last value that the document sets there,
or with the default where it sets none. -/
theorem Document.get_parseString (document : Document) :
    ∃ config, Config.parseString document.text = .ok config ∧
      ∀ (names : List DomainName) (key sDefault : Bytes), 93 ∉ key →
        config.get (paramPath names key) sDefault =
          .ok ((lastValue (document.settings []) (names.map DomainName.text, key)).getD
            sDefault) := by
  obtain ⟨after, hrun, -, hstack, hparams⟩ := document.run ParseState.valid_start rfl
  have hparse : Config.parseString document.text = .ok ⟨after.root⟩ := by
    simp only [Config.parseString, parseConfig, document.run_text, hrun, bind, Except.bind, hstack]
    rfl
  refine ⟨_, hparse, fun names key sDefault clean => ?_⟩
  rw [Config.get_of_path (parseDomainName_paramPath names clean)]
  have atPath := hparams (names.map DomainName.text, key)
  rw [ParseState.paramOf_start, Option.or_none] at atPath
  rw [← atPath]
  rfl

/-- The parser takes the blanks off a key, so that a path that names them finds nothing. -/
theorem get_key_with_blank :
    let answer : Outcome ConfigException Bytes := do
      (← Config.parseString (str "a =1")).get (str "/[a ]") (str "none")
    answer = .ok (str "none") ∧ answer ≠ .ok (str "1") := by
  decide

end ABDyeing
