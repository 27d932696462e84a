import ABDyeing.Config.Domain
import ABDyeing.Lib.Nesting

/-! `INV_Config::parse`, line by line, over a stack of the domains that are open.  The pointers on
the stack are the paths of their domains, since a domain keeps its place in the tree.  The stack is
looked at before a close tag is compared with its top, and not before a domain or a parameter is
added to its top. -/

namespace ABDyeing

open Lib

/-- What the parser takes a line for. -/
inductive ConfigLine
  | skip
  | unclosed (line : Bytes)
  | close (sName : Bytes)
  | opening (name : Bytes)
  | param (line : Bytes)

def readConfigLine (line : Bytes) : ConfigLine :=
  match trim line with
  | [] => .skip
  | 35 :: _ => .skip
  | 91 :: rest =>
    let line := 91 :: rest
    match findFirstOf line (str "]") 0 with
    | none => .unclosed line
    | some posl =>
      if rest.head? = some 47 then .close (substr line 2 (posl - 2))
      else .opening (substr line 1 (posl - 1))
  | line => .param line

/-- The tree, and the stack of the parser with its top first. -/
structure ParseState where
  root : ConfigDomain
  stack : List (List Bytes)

namespace ParseState

def start : ParseState := ⟨Config.new.root, [[]]⟩

/-- `stack.top()`, which is undefined for an empty stack. -/
def top (s : ParseState) : Outcome ConfigException (List Bytes) := vectorAt s.stack 0

/-- What a pointer of the stack points to. -/
def deref (s : ParseState) (path : List Bytes) : Outcome ConfigException Domain :=
  match s.root.valueAt path with
  | some domain => .ok domain
  | none => .error .undefined

def step (line : ConfigLine) (s : ParseState) : Outcome ConfigException ParseState :=
  match line with
  | .skip => .ok s
  | .unclosed line =>
    .error (.exception (.config (str "[INV_Config::parse]:parse error! line : " ++ line)))
  | .close sName =>
    if s.stack.length ≤ 0 then
      .error (.exception (.config (str "[INV_Config::parse]:parse error! <" ++ sName ++
        str "> hasn't matched domain.")))
    else do
      let domain ← s.deref (← s.top)
      if domain.name ≠ sName then
        .error (.exception (.config (str "[INV_Config::parse]:parse error! <" ++ domain.name ++
          str "> hasn't match <" ++ sName ++ str ">.")))
      else return { s with stack := s.stack.tail }
  | .opening name => do
    let path ← s.top
    return ⟨s.root.modify (.addChild name (.new name)) path, (path ++ [name]) :: s.stack⟩
  | .param line => do
    let path ← s.top
    let domain ← (← s.deref path).setParamLine line
    return { s with root := s.root.modify (.setValue fun _ => domain) path }

def run : List ConfigLine → ParseState → Outcome ConfigException ParseState
  | [], s => .ok s
  | line :: lines, s => do run lines (← s.step line)

end ParseState

/-- The lines that `getline` reads one after the other. -/
def getlines (buffer : Bytes) : List Bytes :=
  let pieces := buffer.splitOn 10
  if pieces.getLast? = some [] then pieces.dropLast else pieces

/-- `INV_Config::parse`, with the state that it ends in. -/
def parseConfig (buffer : Bytes) : Outcome ConfigException ParseState := do
  let s ← ParseState.start.run ((getlines buffer).map readConfigLine)
  if s.stack.length ≠ 1 then
    .error (.exception (.config (str "[INV_Config::parse]:parse error : hasn't match")))
  else return s

/-- `INV_Config::parseString`, which begins by emptying the root. -/
def Config.parseString (buffer : Bytes) : Outcome ConfigException Config := do
  let s ← parseConfig buffer
  return ⟨s.root⟩

namespace Domain

/-- The name and the value that `setParamValue` finds in a line. -/
def assignment (line : Bytes) : Outcome ConfigException (Bytes × Bytes) :=
  match assignPos none 0 line with
  | none => .ok (line, [])
  | some pos => do
    let name ← parse (trim (substr line 0 pos))
    let value ← lineValue line pos
    return (name, value)

theorem setParamLine_eq {line : Bytes} (nonempty : line ≠ []) (domain : Domain) :
    domain.setParamLine line = (assignment line).map fun p =>
      { domain with lines := domain.lines ++ [line] }.setParamValue p.1 p.2 := by
  rw [setParamLine, if_neg (by simpa using nonempty), assignment]
  cases assignPos none 0 line with
  | none => rfl
  | some pos =>
    simp only [bind, Except.bind]
    cases parse (trim (substr line 0 pos)) with
    | error e => rfl
    | ok name => cases lineValue line pos <;> rfl

/-- All that a line of the configuration can make the parser throw is `INV_Config_Exception`. -/
def ThrowsConfig {α : Type} (x : Outcome ConfigException α) : Prop :=
  ∀ e, x = .error e → ∃ m, e = .exception (.config m)

theorem ThrowsConfig.bind {α β : Type} {x : Outcome ConfigException α}
    {f : α → Outcome ConfigException β} (hx : ThrowsConfig x) (hf : ∀ a, ThrowsConfig (f a)) :
    ThrowsConfig (x >>= f) := by
  intro e h
  cases x with
  | error e' =>
    obtain rfl : e' = e := Except.error.inj h
    exact hx e' rfl
  | ok a => exact hf a e h

theorem throwsConfig_ok {α : Type} (a : α) : ThrowsConfig (.ok a) := fun _ h => by cases h

theorem unescape_throws (s : Bytes) (c : UInt8) : ThrowsConfig (unescape s c) := by
  unfold unescape
  split
  case h_6 => exact fun _ h => ⟨_, (Except.error.inj h).symm⟩
  all_goals exact throwsConfig_ok _

theorem parseFrom_throws (s t : Bytes) : ThrowsConfig (parseFrom s t) := by
  fun_induction parseFrom s t with
  | case1 => exact throwsConfig_ok _
  | case2 => exact fun _ h => ⟨_, (Except.error.inj h).symm⟩
  | case3 c rest ih =>
    exact (unescape_throws s c).bind fun _ => ih.bind fun _ => throwsConfig_ok _
  | case4 c rest _ _ ih => exact ih.bind fun _ => throwsConfig_ok _

theorem assignment_throws (line : Bytes) : ThrowsConfig (assignment line) := by
  unfold assignment
  split
  · exact throwsConfig_ok _
  · refine (parseFrom_throws _ _).bind fun name => ThrowsConfig.bind ?_ fun _ => throwsConfig_ok _
    unfold lineValue
    split
    · exact parseFrom_throws _ _
    · exact throwsConfig_ok _

theorem setParamLine_throws (line : Bytes) (domain : Domain) :
    ThrowsConfig (domain.setParamLine line) := by
  by_cases nonempty : line = []
  · rw [nonempty]
    exact throwsConfig_ok domain
  · rw [setParamLine_eq nonempty]
    intro e h
    cases hassign : assignment line with
    | error e' =>
      rw [hassign] at h
      exact assignment_throws line e (by rw [hassign, Except.error.inj h])
    | ok p =>
      rw [hassign] at h
      cases h

theorem setParamLine_name {line : Bytes} {domain after : Domain}
    (h : domain.setParamLine line = .ok after) : after.name = domain.name := by
  by_cases nonempty : line = []
  · rw [nonempty] at h
    rw [Except.ok.inj h]
  · rw [setParamLine_eq nonempty] at h
    cases hassign : assignment line with
    | error e =>
      rw [hassign] at h
      cases h
    | ok p =>
      rw [hassign] at h
      rw [← Except.ok.inj h]
      rfl

end Domain

/-- The name that a domain at this path has; the root has none. -/
def nameOf (path : List Bytes) : Bytes := trim (path.getLast?.getD [])

@[simp] theorem nameOf_append (path : List Bytes) (name : Bytes) :
    nameOf (path ++ [name]) = trim name := by
  rw [nameOf, List.getLast?_concat, Option.getD_some]

namespace ParseState

/-- Every domain is named by its path, the pointers point to domains, and the bottom of the stack is
the root. -/
structure Valid (s : ParseState) : Prop where
  named : ∀ path domain, s.root.valueAt path = some domain → domain.name = nameOf path
  pointers : ∀ path ∈ s.stack, ∃ domain, s.root.valueAt path = some domain
  bottom : ∀ path, s.stack.getLast? = some path → path = []

theorem valid_start : start.Valid where
  named path domain h := by
    rw [start, Config.new, Tree.valueAt_leaf] at h
    split at h
    · rename_i hpath
      rw [← Option.some.inj h, hpath]
      rfl
    · cases h
  pointers path h := by
    rw [List.mem_singleton.mp h]
    exact ⟨_, rfl⟩
  bottom path h := by
    exact (Option.some.inj h).symm

section Steps

variable {s : ParseState} {path : List Bytes} {below : List (List Bytes)} {domain : Domain}

theorem step_opening (hstack : s.stack = path :: below) (name : Bytes) :
    s.step (.opening name) =
      .ok ⟨s.root.modify (.addChild name (.new name)) path, (path ++ [name]) :: s.stack⟩ := by
  simp only [step, top, hstack]
  rfl

theorem step_param (hstack : s.stack = path :: below) (hdomain : s.root.valueAt path = some domain)
    (line : Bytes) :
    s.step (.param line) = (domain.setParamLine line).map fun after =>
      { s with root := s.root.modify (.setValue fun _ => after) path } := by
  simp only [step, top, hstack, vectorAt, List.getElem?_cons_zero, bind, Except.bind, deref,
    hdomain]
  cases domain.setParamLine line <;> rfl

theorem step_close (hstack : s.stack = path :: below) (hdomain : s.root.valueAt path = some domain)
    (sName : Bytes) :
    s.step (.close sName) =
      if domain.name = sName then .ok { s with stack := below }
      else .error (.exception (.config (str "[INV_Config::parse]:parse error! <" ++ domain.name ++
        str "> hasn't match <" ++ sName ++ str ">."))) := by
  simp only [step, top, hstack, vectorAt, List.getElem?_cons_zero, bind, Except.bind, deref,
    hdomain, List.length_cons, Nat.le_zero_eq, Nat.add_one_ne_zero, if_false, List.tail_cons,
    ne_eq, ite_not]
  rfl

/-- The domain that the top of the stack points to. -/
theorem Valid.top (valid : s.Valid) (hstack : s.stack = path :: below) :
    ∃ domain, s.root.valueAt path = some domain ∧ domain.name = nameOf path := by
  obtain ⟨domain, hdomain⟩ := valid.pointers path (by rw [hstack]; exact List.mem_cons_self)
  exact ⟨domain, hdomain, valid.named path domain hdomain⟩

theorem valueAt_opening (hdomain : s.root.valueAt path = some domain) (name : Bytes)
    (q : List Bytes) :
    (s.root.modify (.addChild name (.new name)) path).valueAt q =
      (s.root.valueAt q).or (if q = path ++ [name] then some (.new name) else none) := by
  rw [Tree.valueAt_addChild, hdomain]
  rfl

theorem Valid.opening (valid : s.Valid) (hstack : s.stack = path :: below) (name : Bytes) :
    Valid ⟨s.root.modify (.addChild name (.new name)) path, (path ++ [name]) :: s.stack⟩ := by
  obtain ⟨domain, hdomain, -⟩ := valid.top hstack
  have value := valueAt_opening hdomain name
  constructor
  · intro q after h
    simp only [value] at h
    rcases Option.or_eq_some_iff.mp h with h | ⟨-, h⟩
    · exact valid.named q after h
    · split at h
      · rename_i hq
        rw [← Option.some.inj h, hq, nameOf_append]
        rfl
      · cases h
  · intro q hq
    simp only [value]
    rcases List.mem_cons.mp hq with rfl | hq
    · rw [if_pos rfl]
      cases s.root.valueAt (path ++ [name]) <;> exact ⟨_, rfl⟩
    · obtain ⟨before, hbefore⟩ := valid.pointers q hq
      exact ⟨before, by rw [hbefore, Option.some_or]⟩
  · intro q hq
    rw [hstack, List.getLast?_cons_cons, ← hstack] at hq
    exact valid.bottom q hq

theorem Valid.param (valid : s.Valid) (hdomain : s.root.valueAt path = some domain)
    {after : Domain} (hname : after.name = domain.name) :
    Valid { s with root := s.root.modify (.setValue fun _ => after) path } := by
  constructor
  · intro q d h
    rw [Tree.valueAt_setValue] at h
    split at h
    · rename_i hq
      rw [hq, hdomain] at h
      rw [← Option.some.inj h, hname, hq]
      exact valid.named path domain hdomain
    · exact valid.named q d h
  · intro q hq
    obtain ⟨before, hbefore⟩ := valid.pointers q hq
    rw [Tree.valueAt_setValue, hbefore]
    split <;> exact ⟨_, rfl⟩
  · exact valid.bottom

theorem Valid.close (valid : s.Valid) (hstack : s.stack = path :: below) :
    Valid { s with stack := below } := by
  refine ⟨valid.named, fun q hq => valid.pointers q (by rw [hstack]; exact .tail _ hq), ?_⟩
  intro q hq
  have hne : below ≠ [] := fun none => by rw [none] at hq; cases hq
  refine valid.bottom q ?_
  rw [hstack, List.getLast?_cons_of_ne_nil hne]
  exact hq

end Steps

/-- The names of the open domains, as a close tag is compared with them. -/
def names (s : ParseState) : List Bytes := s.stack.map nameOf

end ParseState

namespace ConfigLine

/-- The bracket that a line is. -/
def tag : ConfigLine → Tag Bytes
  | .opening name => .opens (trim name)
  | .close sName => .closes sName
  | .skip => .plain
  | .unclosed _ => .plain
  | .param _ => .plain

theorem eq_opening {line : ConfigLine} {name : Bytes} (h : line.tag = .opens name) :
    ∃ opened, line = .opening opened ∧ trim opened = name := by
  cases line with
  | opening opened => exact ⟨opened, rfl, Tag.opens.inj h⟩
  | skip => cases h
  | unclosed line => cases h
  | close sName => cases h
  | param line => cases h

theorem eq_close {line : ConfigLine} {name : Bytes} (h : line.tag = .closes name) :
    line = .close name := by
  cases line with
  | close sName => exact congrArg _ (Tag.closes.inj h)
  | skip => cases h
  | unclosed line => cases h
  | opening opened => cases h
  | param line => cases h

/-- The parser does not throw for the line alone: a tag has its `]`, and the escapes of a parameter
line can be resolved. -/
def Fine : ConfigLine → Prop
  | .unclosed _ => False
  | .param line => ∃ p, Domain.assignment line = .ok p
  | .skip => True
  | .opening _ => True
  | .close _ => True

/-- The line is added to the domain on the top of the stack. -/
def NeedsTop : ConfigLine → Prop
  | .opening _ => True
  | .param _ => True
  | .skip => False
  | .unclosed _ => False
  | .close _ => False

end ConfigLine

namespace Domain

theorem setParamLine_ok_iff {line : Bytes} (domain : Domain) :
    (∃ after, domain.setParamLine line = .ok after) ↔ ∃ p, assignment line = .ok p := by
  by_cases nonempty : line = []
  · rw [nonempty]
    exact iff_of_true ⟨_, rfl⟩ ⟨_, rfl⟩
  · rw [setParamLine_eq nonempty]
    cases assignment line with
    | error e => exact iff_of_false (fun ⟨_, h⟩ => by cases h) fun ⟨_, h⟩ => by cases h
    | ok p => exact iff_of_true ⟨_, rfl⟩ ⟨_, rfl⟩

end Domain

namespace ParseState

/-- What a step does: it goes on in a valid state where the line is fine and its bracket fits, it
throws, or it takes the top of the empty stack. -/
theorem step_cases {s : ParseState} (valid : s.Valid) (line : ConfigLine) :
    (∃ after, s.step line = .ok after ∧ after.Valid ∧ line.Fine ∧
      walk ConfigLine.tag [line] s.names = some after.names) ∨
    (∃ m, s.step line = .error (.exception (.config m))) ∨
    (s.step line = .error .undefined ∧ s.stack = [] ∧ line.NeedsTop) := by
  cases line with
  | skip => exact .inl ⟨s, rfl, valid, trivial, rfl⟩
  | unclosed line => exact .inr (.inl ⟨_, rfl⟩)
  | close sName =>
    cases hstack : s.stack with
    | nil => exact .inr (.inl ⟨_, by rw [step, if_pos (by simp [hstack])]⟩)
    | cons path below =>
      obtain ⟨domain, hdomain, hname⟩ := valid.top hstack
      rw [step_close hstack hdomain]
      by_cases same : domain.name = sName
      · rw [if_pos same]
        refine .inl ⟨_, rfl, valid.close hstack, trivial, ?_⟩
        have closes : ConfigLine.tag (.close sName) = .closes sName := rfl
        rw [names, hstack, List.map_cons, walk_closes closes, if_pos (hname.symm.trans same)]
        rfl
      · rw [if_neg same]
        exact .inr (.inl ⟨_, rfl⟩)
  | opening name =>
    cases hstack : s.stack with
    | nil => exact .inr (.inr ⟨by simp only [step, top, hstack]; rfl, rfl, trivial⟩)
    | cons path below =>
      rw [step_opening hstack]
      refine .inl ⟨_, rfl, valid.opening hstack name, trivial, ?_⟩
      have opens : ConfigLine.tag (.opening name) = .opens (trim name) := rfl
      rw [walk_opens opens, walk, names, names, List.map_cons, nameOf_append]
  | param line =>
    cases hstack : s.stack with
    | nil => exact .inr (.inr ⟨by simp only [step, top, hstack]; rfl, rfl, trivial⟩)
    | cons path below =>
      obtain ⟨domain, hdomain, -⟩ := valid.top hstack
      rw [step_param hstack hdomain]
      cases hset : domain.setParamLine line with
      | error e =>
        obtain ⟨m, rfl⟩ := Domain.setParamLine_throws line domain e hset
        exact .inr (.inl ⟨m, rfl⟩)
      | ok after =>
        refine .inl ⟨_, rfl, valid.param hdomain (Domain.setParamLine_name hset), ?_, rfl⟩
        exact (Domain.setParamLine_ok_iff domain).mp ⟨after, hset⟩

/-- The empty stack is the only thing that makes a step undefined. -/
theorem step_undefined_iff {s : ParseState} (valid : s.Valid) (line : ConfigLine) :
    s.step line = .error .undefined ↔ s.stack = [] ∧ line.NeedsTop := by
  constructor
  · intro h
    rcases step_cases valid line with ⟨after, hok, -⟩ | ⟨m, hthrow⟩ | ⟨-, empty⟩
    · cases hok.symm.trans h
    · cases hthrow.symm.trans h
    · exact empty
  · intro ⟨empty, needs⟩
    cases line with
    | opening name => simp only [step, top, empty]; rfl
    | param line => simp only [step, top, empty]; rfl
    | skip => exact needs.elim
    | unclosed line => exact needs.elim
    | close sName => exact needs.elim

theorem run_append (before after : List ConfigLine) (s : ParseState) :
    s.run (before ++ after) = (do (← s.run before).run after) := by
  induction before generalizing s with
  | nil => rfl
  | cons line lines ih =>
    rw [List.cons_append, run, run, bind_assoc]
    exact congrArg _ (funext fun after => ih after)

theorem run_ok {lines : List ConfigLine} {s after : ParseState} (valid : s.Valid)
    (h : s.run lines = .ok after) :
    after.Valid ∧ (∀ line ∈ lines, line.Fine) ∧
      walk ConfigLine.tag lines s.names = some after.names := by
  induction lines generalizing s with
  | nil =>
    obtain rfl : s = after := Except.ok.inj h
    exact ⟨valid, by simp, rfl⟩
  | cons line lines ih =>
    obtain ⟨next, hstep, hrun⟩ := bind_eq_ok.mp h
    rcases step_cases valid line with ⟨next', hok, hvalid, fine, hwalk⟩ | ⟨m, hthrow⟩ | ⟨hundef, -⟩
    · obtain rfl : next' = next := Except.ok.inj (hok.symm.trans hstep)
      obtain ⟨hafter, hfine, hnames⟩ := ih hvalid hrun
      refine ⟨hafter, List.forall_mem_cons.mpr ⟨fine, hfine⟩, ?_⟩
      rw [← List.singleton_append, walk_append, hwalk]
      exact hnames
    · cases hthrow.symm.trans hstep
    · cases hundef.symm.trans hstep

/-- A line without a bracket leaves the stack as it was. -/
theorem step_plain {s : ParseState} {line : ConfigLine} (plain : line.tag = .plain)
    (fine : line.Fine) (valid : s.Valid) (below : s.stack ≠ []) :
    ∃ after, s.step line = .ok after ∧ after.Valid ∧ after.stack = s.stack := by
  cases line with
  | skip => exact ⟨s, rfl, valid, rfl⟩
  | unclosed line => exact fine.elim
  | close sName => cases plain
  | opening name => cases plain
  | param line =>
    obtain ⟨path, rest, hstack⟩ := List.exists_cons_of_ne_nil below
    obtain ⟨domain, hdomain, -⟩ := valid.top hstack
    obtain ⟨after, hset⟩ := (Domain.setParamLine_ok_iff domain).mpr fine
    rw [step_param hstack hdomain, hset]
    exact ⟨_, rfl, valid.param hdomain (Domain.setParamLine_name hset), rfl⟩

/-- A domain is opened, its lines are gone over, and it is closed. -/
theorem run_domain {s inner : ParseState} {path : List Bytes} {below : List (List Bytes)}
    (hstack : s.stack = path :: below) {name : Bytes} {body : List ConfigLine}
    (hbody : run body ⟨s.root.modify (.addChild name (.new name)) path,
      (path ++ [name]) :: s.stack⟩ = .ok inner)
    (valid : inner.Valid) (hinner : inner.stack = (path ++ [name]) :: s.stack)
    (rest : List ConfigLine) :
    s.run (.opening name :: body ++ .close (trim name) :: rest) =
      run rest { inner with stack := s.stack } := by
  obtain ⟨domain, hdomain, hname⟩ := valid.top hinner
  rw [nameOf_append] at hname
  rw [List.cons_append, run, step_opening hstack]
  change run (body ++ .close (trim name) :: rest) _ = _
  rw [run_append, hbody]
  change run (.close (trim name) :: rest) inner = _
  rw [run, step_close hinner hdomain, if_pos hname]
  rfl

/-- A balanced list of fine lines leaves the stack as it was. -/
theorem run_balanced {lines : List ConfigLine} (balanced : Balanced ConfigLine.tag lines)
    (fine : ∀ line ∈ lines, line.Fine) {s : ParseState} (valid : s.Valid) (below : s.stack ≠ []) :
    ∃ after, s.run lines = .ok after ∧ after.Valid ∧ after.stack = s.stack := by
  induction balanced generalizing s with
  | nil => exact ⟨s, rfl, valid, rfl⟩
  | @plain line rest plain _ ih =>
    obtain ⟨hline, hrest⟩ := List.forall_mem_cons.mp fine
    obtain ⟨next, hstep, hnext, hstack⟩ := step_plain plain hline valid below
    obtain ⟨after, hrun, hafter, hsame⟩ := ih hrest hnext (hstack ▸ below)
    exact ⟨after, by rw [run, hstep]; exact hrun, hafter, hsame.trans hstack⟩
  | @pair first last name body rest hopen hclose _ _ ihBody ihRest =>
    obtain ⟨opened, rfl, rfl⟩ := ConfigLine.eq_opening hopen
    obtain rfl := ConfigLine.eq_close hclose
    obtain ⟨path, rest', hstack⟩ := List.exists_cons_of_ne_nil below
    have hbody : ∀ line ∈ body, line.Fine := fun line h => fine line (by simp [h])
    have hrest : ∀ line ∈ rest, line.Fine := fun line h => fine line (by simp [h])
    obtain ⟨inner, hinner, validInner, stackInner⟩ :=
      ihBody hbody (valid.opening hstack opened) (by simp)
    obtain ⟨after, hafter, validAfter, stackAfter⟩ :=
      ihRest hrest (validInner.close stackInner) below
    refine ⟨after, ?_, validAfter, stackAfter⟩
    rw [run_domain hstack hinner validInner stackInner]
    exact hafter

/-- Where the stack is empty the parser goes on over comments and blank lines only. -/
theorem run_empty {lines : List ConfigLine} {s after : ParseState} (empty : s.stack = []) :
    s.run lines = .ok after ↔ after = s ∧ ∀ line ∈ lines, line = .skip := by
  induction lines with
  | nil => simp [run, eq_comm]
  | cons line lines ih =>
    rw [List.forall_mem_cons]
    cases line with
    | skip => exact ih.trans (by simp)
    | unclosed line => exact iff_of_false (fun h => by cases h) (by simp)
    | close sName =>
      rw [run, step, if_pos (by simp [empty])]
      exact iff_of_false (fun h => by cases h) (by simp)
    | opening name =>
      rw [run, step, top, empty]
      exact iff_of_false (fun h => by cases h) (by simp)
    | param line =>
      rw [run, step, top, empty]
      exact iff_of_false (fun h => by cases h) (by simp)

theorem run_error {lines : List ConfigLine} {s : ParseState} {e : Abort ConfigException} :
    s.run lines = .error e ↔ ∃ before line after next, lines = before ++ line :: after ∧
      s.run before = .ok next ∧ next.step line = .error e := by
  induction lines generalizing s with
  | nil => exact iff_of_false (fun h => by cases h) (by simp)
  | cons line lines ih =>
    constructor
    · intro h
      cases hstep : s.step line with
      | error e' =>
        rw [run, hstep] at h
        obtain rfl : e' = e := Except.error.inj h
        exact ⟨[], line, lines, s, rfl, rfl, hstep⟩
      | ok next =>
        rw [run, hstep] at h
        obtain ⟨before, l, after, last, rfl, hrun, hlast⟩ := ih.mp h
        exact ⟨line :: before, l, after, last, rfl, by rw [run, hstep]; exact hrun, hlast⟩
    · intro ⟨before, l, after, last, hlines, hrun, hlast⟩
      cases before with
      | nil =>
        obtain ⟨rfl, rfl⟩ := List.cons.inj hlines
        obtain rfl : s = last := Except.ok.inj hrun
        rw [run, hlast]
        rfl
      | cons b before =>
        obtain ⟨rfl, rfl⟩ := List.cons.inj hlines
        obtain ⟨next, hstep, hrun⟩ := bind_eq_ok.mp hrun
        rw [run, hstep]
        exact ih.mpr ⟨before, l, after, last, rfl, hrun, hlast⟩

/-- The lines close the root, and go on with a tag that opens a domain or with a parameter. -/
def ClosesRoot (lines : List ConfigLine) : Prop :=
  ∃ body skips line rest, lines = body ++ .close [] :: skips ++ line :: rest ∧
    Balanced ConfigLine.tag body ∧ (∀ l ∈ body, l.Fine) ∧ (∀ l ∈ skips, l = .skip) ∧
    line.NeedsTop

theorem run_closeRoot {body : List ConfigLine} (balanced : Balanced ConfigLine.tag body)
    (fine : ∀ l ∈ body, l.Fine) (rest : List ConfigLine) :
    ∃ s : ParseState, s.Valid ∧ s.stack = [] ∧
      start.run (body ++ .close [] :: rest) = s.run rest := by
  obtain ⟨after, hrun, valid, hstack⟩ := run_balanced balanced fine valid_start (by simp [start])
  obtain ⟨domain, hdomain, hname⟩ := valid.top hstack
  refine ⟨{ after with stack := [] }, valid.close hstack, rfl, ?_⟩
  rw [run_append, hrun]
  change after.run (.close [] :: rest) = _
  rw [run, step_close hstack hdomain, if_pos (show domain.name = [] from hname)]
  rfl

theorem run_undefined_iff (lines : List ConfigLine) :
    start.run lines = .error .undefined ↔ ClosesRoot lines := by
  rw [run_error]
  constructor
  · intro ⟨before, line, after, next, hlines, hbefore, hstep⟩
    obtain ⟨valid, fine, hwalk⟩ := run_ok valid_start hbefore
    obtain ⟨empty, needs⟩ := (step_undefined_iff valid line).mp hstep
    rw [names, names, empty] at hwalk
    obtain ⟨body, c, skips, rfl, hclose, balanced, -⟩ := exists_close hwalk (Nat.zero_le _)
    have hc : c = .close [] := ConfigLine.eq_close hclose
    have hbody : ∀ l ∈ body, l.Fine := fun l h => fine l (by simp [h])
    obtain ⟨s, -, hs, hrun⟩ := run_closeRoot balanced hbody skips
    rw [← hc, hbefore] at hrun
    exact ⟨body, skips, line, after, by rw [hlines, hc], balanced, hbody,
      ((run_empty hs).mp hrun.symm).2, needs⟩
  · intro ⟨body, skips, line, rest, hlines, balanced, fine, hskips, needs⟩
    obtain ⟨s, valid, empty, hrun⟩ := run_closeRoot balanced fine skips
    exact ⟨body ++ .close [] :: skips, line, rest, s, hlines,
      hrun.trans ((run_empty empty).mpr ⟨rfl, hskips⟩),
      (step_undefined_iff valid line).mpr ⟨empty, needs⟩⟩

end ParseState

/-- The parser throws nothing but `INV_Config_Exception`. -/
theorem ParseState.run_throws {lines : List ConfigLine} {s : ParseState} (valid : s.Valid)
    {e : ConfigException} (h : s.run lines = .error (.exception e)) : ∃ m, e = .config m := by
  obtain ⟨before, line, after, next, -, hbefore, hstep⟩ := run_error.mp h
  rcases step_cases (run_ok valid hbefore).1 line with ⟨after, hok, -⟩ | ⟨m, hthrow⟩ | ⟨hundef, -⟩
  · cases hok.symm.trans hstep
  · rw [hthrow, Except.error.injEq, Abort.exception.injEq] at hstep
    exact ⟨m, hstep.symm⟩
  · cases hundef.symm.trans hstep

/-- The parser ends with the root alone on its stack, or throws `INV_Config_Exception`. -/
def ParsesOrThrows (buffer : Bytes) : Prop :=
  (∃ s, parseConfig buffer = .ok s ∧ s.stack = [[]]) ∨
    ∃ m, parseConfig buffer = .error (.exception (.config m))

/-- The parser does what it should for exactly the texts that do not close the root and go on. -/
theorem parsesOrThrows_iff (buffer : Bytes) :
    ParsesOrThrows buffer ↔
      ¬ParseState.ClosesRoot ((getlines buffer).map readConfigLine) := by
  rw [← ParseState.run_undefined_iff]
  unfold ParsesOrThrows parseConfig
  cases hrun : ParseState.start.run ((getlines buffer).map readConfigLine) with
  | error e =>
    cases e with
    | exception e =>
      obtain ⟨m, rfl⟩ := ParseState.run_throws ParseState.valid_start hrun
      exact iff_of_true (.inr ⟨m, rfl⟩) (fun h => by cases h)
    | undefined =>
      refine iff_of_false (fun h => ?_) (not_not_intro rfl)
      rcases h with ⟨s, h, -⟩ | ⟨m, h⟩ <;> cases h
  | ok s =>
    refine iff_of_true ?_ (fun h => by cases h)
    have valid := (ParseState.run_ok ParseState.valid_start hrun).1
    simp only [bind, Except.bind]
    by_cases single : s.stack.length = 1
    · obtain ⟨path, hstack⟩ := List.length_eq_one_iff.mp single
      rw [if_neg (not_not_intro single)]
      exact .inl ⟨s, rfl, by rw [hstack, valid.bottom path (by rw [hstack]; rfl)]⟩
    · rw [if_pos single]
      exact .inr ⟨_, rfl⟩

/-- The first line closes the root, and the second one is added to the top of an empty stack. -/
theorem parseConfig_undefined :
    parseConfig (str "[/]\nk=v") = .error .undefined ∧ ¬ParsesOrThrows (str "[/]\nk=v") := by
  have undefined : parseConfig (str "[/]\nk=v") = .error .undefined := by rfl
  refine ⟨undefined, fun h => ?_⟩
  rcases h with ⟨s, h, -⟩ | ⟨m, h⟩
  · cases undefined.symm.trans h
  · cases undefined.symm.trans h

end ABDyeing
