import ABDyeing.Config.Document
import ABDyeing.Fresh.Brokers

/-! What `loadbase` makes of a configuration as it is written: the brokers are the parameter lines
of `/main/fresh/brokers` in their order, however often the domain is closed and opened again and
also where one key has several lines; the topic and the group are the last values written. -/

namespace ABDyeing

open Lib

/-- The lines of one key in a list, in their order. -/
def linesAt (lines : List (List Bytes × Bytes)) (path : List Bytes) : List Bytes :=
  (lines.filter fun l => decide (l.1 = path)).map (·.2)

/-- The parameter lines of the document, as the parser stores them, each with the path of the domain
that it stands in directly. -/
def Document.paramLines (path : List Bytes) : Document → List (List Bytes × Bytes)
  | done => []
  | blank _ rest => rest.paramLines path
  | comment _ rest => rest.paramLines path
  | param p rest => (path, p.trimmed) :: rest.paramLines path
  | domain name _ body rest => body.paramLines (path ++ [name.text]) ++ rest.paramLines path

/-- The lines at a path of the tree. -/
def linesOf (root : ConfigDomain) (path : List Bytes) : List Bytes :=
  ((root.valueAt path).map Domain.lines).getD []

theorem linesAt_append (first rest : List (List Bytes × Bytes)) (path : List Bytes) :
    linesAt (first ++ rest) path = linesAt first path ++ linesAt rest path := by
  rw [linesAt, List.filter_append, List.map_append, linesAt, linesAt]

theorem linesAt_cons (path : List Bytes) (line : Bytes) (rest : List (List Bytes × Bytes))
    (q : List Bytes) :
    linesAt ((path, line) :: rest) q = (if path = q then [line] else []) ++ linesAt rest q := by
  by_cases h : path = q <;> simp [linesAt, h]

namespace ParseState

variable {s : ParseState} {path : List Bytes} {below : List (List Bytes)} {domain : Domain}

theorem linesOf_opening (hdomain : s.root.valueAt path = some domain) (name : Bytes)
    (q : List Bytes) :
    linesOf (s.root.modify (.addChild name (.new name)) path) q = linesOf s.root q := by
  rw [linesOf, valueAt_opening hdomain, linesOf]
  cases s.root.valueAt q with
  | some before => rfl
  | none =>
    rw [Option.none_or]
    split <;> rfl

/-- A parameter line is stored behind the lines of the domain on the top of the stack. -/
theorem linesOf_assign (valid : s.Valid) (hstack : s.stack = path :: below) {line : Bytes}
    (nonempty : line ≠ []) {next : ParseState} (hstep : s.step (.param line) = .ok next)
    (q : List Bytes) :
    linesOf next.root q = linesOf s.root q ++ if path = q then [line] else [] := by
  obtain ⟨domain, hdomain, -⟩ := valid.top hstack
  rw [step_param hstack hdomain, Domain.setParamLine_eq nonempty] at hstep
  cases hassign : Domain.assignment line with
  | error e =>
    rw [hassign] at hstep
    cases hstep
  | ok p =>
    rw [hassign] at hstep
    obtain rfl := Except.ok.inj hstep
    simp only [linesOf, Tree.valueAt_setValue, eq_comm (a := path)]
    by_cases same : q = path
    · subst same
      rw [if_pos rfl, if_pos rfl, hdomain]
      rfl
    · rw [if_neg same, if_neg same, List.append_nil]

theorem linesOf_start (q : List Bytes) : linesOf start.root q = [] := by
  rw [linesOf, start, Config.new, Tree.valueAt_leaf]
  split <;> rfl

end ParseState

/-- Over a document the parser stores its parameter lines, each in its own domain. -/
theorem Document.run_lines (document : Document) {s after : ParseState} (valid : s.Valid)
    {path : List Bytes} {below : List (List Bytes)} (hstack : s.stack = path :: below)
    (hrun : s.run (document.lines.map readConfigLine) = .ok after) (q : List Bytes) :
    linesOf after.root q = linesOf s.root q ++ linesAt (document.paramLines path) q := by
  induction document generalizing s path below after with
  | done =>
    obtain rfl := Except.ok.inj hrun
    exact (List.append_nil _).symm
  | blank pad rest ih =>
    rw [lines, List.map_cons, readConfigLine_blank] at hrun
    exact ih valid hstack hrun
  | comment c rest ih =>
    rw [lines, List.map_cons, readConfigLine_comment] at hrun
    exact ih valid hstack hrun
  | param p rest ih =>
    have nonempty : p.trimmed ≠ [] := by simp [ParamLine.trimmed]
    obtain ⟨next, hstep, validNext, stackNext, -⟩ := valid.assign hstack nonempty p.assignment
    rw [lines, List.map_cons, p.read, ParseState.run, hstep] at hrun
    rw [ih validNext (stackNext.trans hstack) hrun,
      ParseState.linesOf_assign valid hstack nonempty hstep, paramLines, linesAt_cons,
      List.append_assoc]
  | domain name pad body rest ihBody ihRest =>
    obtain ⟨domain, hdomain, -⟩ := valid.top hstack
    have opened := valid.opening hstack name.text
    obtain ⟨inner, hinner, validInner, stackInner, -⟩ := body.run opened rfl
    have hdomainRun := ParseState.run_domain hstack hinner validInner stackInner
    rw [name.unpadded] at hdomainRun
    rw [lines, List.cons_append, List.map_cons, List.map_append, List.map_cons,
      readConfigLine_opening, readConfigLine_close] at hrun
    replace hrun := (hdomainRun _).symm.trans hrun
    rw [ihRest (validInner.close stackInner) hstack hrun, paramLines, linesAt_append,
      ← List.append_assoc]
    congr 1
    rw [← ParseState.linesOf_opening hdomain name.text q]
    have inside := ihBody opened rfl hinner
    exact inside

/-- The broker that a line names, if it has an address and a port. -/
def brokerOf (line : Bytes) : Option (Bytes × UInt16) :=
  (brokerFields line).map fun fields => (fields.1, portOf fields.2)

theorem loadBrokers_mapM (lines : List Bytes) (brokers : List (Bytes × UInt16)) :
    loadBrokers lines brokers =
      match lines.mapM brokerOf with
      | some loaded => .ok (brokers ++ loaded)
      | none => .error .undefined := by
  induction lines generalizing brokers with
  | nil => rw [loadBrokers, List.mapM_nil]; exact congrArg _ (List.append_nil _).symm
  | cons line lines ih =>
    rw [loadBrokers, parseBroker_eq, List.mapM_cons, brokerOf]
    cases brokerFields line with
    | none => rfl
    | some fields =>
      simp only [bind, Except.bind, ih]
      cases lines.mapM brokerOf with
      | none => rfl
      | some loaded => simp [pure]

/-- What is to come out of `loadbase`, given the lines of the brokers and the two settings. -/
def kafkaBase (lines : List Bytes) (topic group : Bytes) :
    Outcome ConfigException (Option KafkaBase) :=
  match lines.mapM brokerOf with
  | none => .error .undefined
  | some brokers =>
    .ok (if brokers.isEmpty || topic.isEmpty || group.isEmpty then none
      else some ⟨brokers, topic, group⟩)

theorem loadbase_kafkaBase (conf : Config) :
    loadbase conf =
      kafkaBase (linesOf conf.root [str "main", str "fresh", str "brokers"])
        ((conf.paramAt [str "main", str "fresh"] (str "topic")).getD [])
        ((conf.paramAt [str "main", str "fresh"] (str "group")).getD []) := by
  have get (name : String) (dp : DomainPath) (h : parseDomainName (str name) true = .ok dp) :
      conf.get (str name) [] = .ok ((conf.paramAt dp.domains dp.param).getD []) :=
    Config.get_of_path h []
  have topic := get "/main/fresh/[topic]" ⟨[str "main", str "fresh"], str "topic"⟩ rfl
  have group := get "/main/fresh/[group]" ⟨[str "main", str "fresh"], str "group"⟩ rfl
  have lines : conf.getDomainLine brokersPath =
      .ok (linesOf conf.root [str "main", str "fresh", str "brokers"]) := by
    have path : parseDomainName brokersPath false =
        .ok ⟨[str "main", str "fresh", str "brokers"], []⟩ := rfl
    rw [Config.getDomainLine, path, linesOf]
    simp only [bind, Except.bind, Config.searchDomain]
    cases conf.root.valueAt [str "main", str "fresh", str "brokers"] <;> rfl
  simp only [loadbase, lines, topic, group, loadBrokers_mapM, List.nil_append, kafkaBase, bind,
    Except.bind]
  cases (linesOf conf.root [str "main", str "fresh", str "brokers"]).mapM brokerOf with
  | none => rfl
  | some brokers =>
    simp only
    split
    · simp [*, pure, Except.pure]
    split
    · simp [*, pure, Except.pure]
    split
    · simp [*, pure, Except.pure]
    · simp [*, pure, Except.pure]

/-- `loadbase` of a configuration that is written with its tags nested rightly: each line of the
brokers gives its broker, in their order, and the topic and the group are the last ones written.  A
line without an address and a port is read past its end, and nothing is loaded where there is no
broker, no topic or no group. -/
theorem Document.loadbase_parseString (document : Document) :
    ∃ config, Config.parseString document.text = .ok config ∧
      let setting (key : String) :=
        (lastValue (document.settings []) ([str "main", str "fresh"], str key)).getD []
      loadbase config =
        kafkaBase (linesAt (document.paramLines []) [str "main", str "fresh", str "brokers"])
          (setting "topic") (setting "group") := by
  obtain ⟨after, hrun, -, hstack, hparams⟩ := document.run ParseState.valid_start rfl
  have hparse : Config.parseString document.text = .ok ⟨after.root⟩ := by
    simp only [Config.parseString, parseConfig, document.run_text, hrun, bind, Except.bind, hstack]
    rfl
  have hlines := document.run_lines ParseState.valid_start rfl hrun
  have param (path : List Bytes) (name : Bytes) :
      (Config.mk after.root).paramAt path name = lastValue (document.settings []) (path, name) := by
    have value := hparams (path, name)
    rwa [ParseState.paramOf_start, Option.or_none] at value
  refine ⟨_, hparse, ?_⟩
  rw [loadbase_kafkaBase, hlines, ParseState.linesOf_start, List.nil_append, param, param]

end ABDyeing
