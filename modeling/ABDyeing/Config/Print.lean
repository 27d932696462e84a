import Mathlib.Data.List.Sort
import ABDyeing.Config.Document
import ABDyeing.Config.Escape

/-! `INV_Config::tostr`, which writes the tags of a domain as `<name>` and `</name>`.  The parser
knows only tags in square brackets, so it takes every line that is printed for a parameter of the
root. -/

namespace ABDyeing

open Lib

namespace Domain

/-- The line of a parameter. -/
def paramTostr (sTab : Bytes) (p : Bytes × Bytes) : Outcome ConfigException Bytes := do
  let key ← reverseParse p.1
  if p.2.isEmpty then return str "\t" ++ sTab ++ key ++ str "\n"
  else return str "\t" ++ sTab ++ key ++ str "=" ++ (← reverseParse p.2) ++ str "\n"

def paramsTostr (sTab : Bytes) : List (Bytes × Bytes) → Outcome ConfigException Bytes
  | [] => .ok []
  | p :: rest => do
    let line ← paramTostr sTab p
    return line ++ (← paramsTostr sTab rest)

mutual

/-- `INV_ConfigDomain::tostr` -/
def tostr (i : Nat) : ConfigDomain → Outcome ConfigException Bytes
  | .node domain children => do
    let sTab := List.replicate i 9
    let name ← reverseParse domain.name
    let params ← paramsTostr sTab domain.params
    let subdomains ← tostrAll (i + 1) children
    return sTab ++ str "<" ++ name ++ str ">\n" ++ params ++ subdomains ++
      sTab ++ str "</" ++ name ++ str ">\n"

def tostrAll (i : Nat) : List (Bytes × ConfigDomain) → Outcome ConfigException Bytes
  | [] => .ok []
  | (_, d) :: rest => do
    let first ← tostr i d
    return first ++ (← tostrAll i rest)

end

/-- A line that is printed is the one of `printLine`, between tabs and the end of the line. -/
theorem paramTostr_eq (sTab name : Bytes) {value : Bytes} (nonempty : value ≠ []) :
    paramTostr sTab (name, value) =
      (printLine name value).map fun line => str "\t" ++ sTab ++ line ++ str "\n" := by
  rw [paramTostr, printLine]
  cases reverseParse name with
  | error e => rfl
  | ok key =>
    simp only [bind, Except.bind, List.isEmpty_eq_false_iff.mpr nonempty]
    cases reverseParse value with
    | error e => rfl
    | ok text => simp [pure, Except.pure, Except.map]

end Domain

namespace Config

/-- `INV_Config::tostr`, which goes over the domains in the order of their names. -/
def tostr (config : Config) : Outcome ConfigException Bytes :=
  Domain.tostrAll 0 (config.root.children.insertionSort fun a b => strLe a.1 b.1)

def joinConfig (config cf : Config) (bUpdate : Bool) : Outcome ConfigException Config := do
  let own ← config.tostr
  let other ← cf.tostr
  parseString (if bUpdate then own ++ other else other ++ own)

end Config

def isAlphanumeric (c : UInt8) : Bool :=
  (48 ≤ c && c ≤ 57) || (65 ≤ c && c ≤ 90) || (97 ≤ c && c ≤ 122)

structure Alphanumeric (s : Bytes) : Prop where
  nonempty : s ≠ []
  all : s.all isAlphanumeric = true

namespace Alphanumeric

variable {s : Bytes}

theorem not_mem (h : Alphanumeric s) {c : UInt8} (other : isAlphanumeric c = false) : c ∉ s :=
  fun hc => Bool.noConfusion (other.symm.trans (List.all_eq_true.mp h.all c hc))

theorem isBlank (h : Alphanumeric s) {c : UInt8} (hc : c ∈ s) : isBlank c = false := by
  by_contra blank
  rw [Bool.not_eq_false] at blank
  rcases isBlank_cases blank with rfl | rfl | rfl | rfl
  all_goals exact h.not_mem (by decide) hc

theorem trim_eq (h : Alphanumeric s) : trim s = s :=
  trim_eq_of_ends (fun _ hc => h.isBlank (List.mem_of_head? hc))
    fun _ hc => h.isBlank (List.mem_of_getLast? hc)

theorem escapeLetter (h : Alphanumeric s) {c : UInt8} (hc : c ∈ s) :
    Domain.escapeLetter c = none := by
  have clean (d : UInt8) (other : isAlphanumeric d = false) : c ≠ d :=
    fun same => h.not_mem other (same ▸ hc)
  unfold Domain.escapeLetter
  split
  case h_6 => rfl
  all_goals exact absurd rfl (clean _ (by decide))

theorem reverseParse (h : Alphanumeric s) : Domain.reverseParse s = .ok s := by
  rw [Domain.reverseParse_eq ⟨h.not_mem (by decide), h.not_mem (by decide)⟩,
    EscapeCode.encode_eq_self fun c hc => h.escapeLetter hc]

end Alphanumeric

/-- The parser takes the line for a parameter with this key and value. -/
structure LineReads (line : Bytes) (p : Bytes × Bytes) : Prop where
  oneLine : 10 ∉ line
  read : ∃ said, readConfigLine line = .param said ∧ said ≠ [] ∧ Domain.assignment said = .ok p

def tabs (i : Nat) : Padding where
  text := List.replicate i 9
  blank c hc := by
    rw [List.eq_of_mem_replicate hc]
    rfl
  oneLine h := absurd (List.eq_of_mem_replicate h) (by decide)

def noPadding : Padding where
  text := []
  blank _ hc := absurd hc List.not_mem_nil
  oneLine := List.not_mem_nil

/-- A tag in angle brackets is no tag to the parser, but a parameter without a value. -/
theorem lineReads_angle (i : Nat) {slash name : Bytes} (hslash : slash = [] ∨ slash = [47])
    (hname : Alphanumeric name) :
    LineReads ((tabs i).text ++ (60 :: slash ++ name ++ [62]))
      (60 :: slash ++ name ++ [62], []) := by
  have clean (c : UInt8) (other : isAlphanumeric c = false) (hc : c ∉ [60, 47, 62]) :
      c ∉ 60 :: slash ++ name ++ [62] := by
    simp only [List.mem_cons, List.not_mem_nil, or_false, not_or] at hc
    have := hname.not_mem other
    rcases hslash with rfl | rfl <;> simp [hc, this]
  have trimmed : trim ((tabs i).text ++ (60 :: slash ++ name ++ [62])) =
      60 :: (slash ++ name ++ [62]) := by
    have padded := trim_pad (tabs i).blank (List.forall_mem_nil _) (60 :: slash ++ name ++ [62])
    rw [List.append_nil] at padded
    rw [padded]
    have first : isBlank 60 = false := by decide
    exact trim_eq_self first fun h => by simp; decide
  refine ⟨?_, _, readConfigLine_param trimmed (by decide) (by decide), by simp, ?_⟩
  · rw [List.mem_append, not_or]
    exact ⟨(tabs i).oneLine, clean 10 (by decide) (by decide)⟩
  · have guarded : Guarded 92 61 none (60 :: slash ++ name ++ [62]) :=
      guarded_of_not_mem (clean 61 (by decide) (by decide))
    rw [Domain.assignment, ← List.cons_append, ← List.cons_append,
      Domain.assignPos_eq_none guarded]

theorem lineReads_param (i : Nat) {key value : Bytes} (hkey : Alphanumeric key)
    (hvalue : Alphanumeric value) :
    LineReads ((tabs i).text ++ key ++ str "=" ++ value) (key, value) := by
  have first (c : UInt8) (other : isAlphanumeric c = false) : key.head? ≠ some c := fun h =>
    hkey.not_mem other (List.mem_of_head? h)
  let param : ParamLine := {
    left := tabs i
    key := key
    mid := noPadding
    value := value
    nonempty := hkey.nonempty
    unpadded := hkey.trim_eq
    clean := ⟨hkey.not_mem (by decide), hkey.not_mem (by decide)⟩
    start := ⟨first 91 (by decide), first 35 (by decide)⟩
    noBackslash := ⟨hkey.not_mem (by decide), hvalue.not_mem (by decide)⟩
    oneLine := ⟨hkey.not_mem (by decide), hvalue.not_mem (by decide)⟩ }
  have line : param.line = (tabs i).text ++ key ++ str "=" ++ value := by
    simp [ParamLine.line, param, noPadding]
  rw [← line]
  refine ⟨?_, param.trimmed, param.read, by simp [ParamLine.trimmed], ?_⟩
  · have equals : (10 : UInt8) ∉ str "=" := by decide
    rw [line]
    simp only [List.mem_append, not_or]
    exact ⟨⟨⟨(tabs i).oneLine, param.oneLine.1⟩, equals⟩, param.oneLine.2⟩
  · rw [param.assignment]
    exact congrArg (fun value => Except.ok (key, value)) hvalue.trim_eq

/-- The parser takes the lines of the text for these parameters. -/
inductive Reads : Bytes → List (Bytes × Bytes) → Prop
  | nil : Reads [] []
  | line {line rest : Bytes} {p : Bytes × Bytes} {ps : List (Bytes × Bytes)}
      (first : LineReads line p) (tail : Reads rest ps) : Reads (line ++ 10 :: rest) (p :: ps)

theorem LineReads.reads {line : Bytes} {p : Bytes × Bytes} (h : LineReads line p) :
    Reads (line ++ str "\n") [p] := .line h .nil

theorem Reads.append {text rest : Bytes} {ps qs : List (Bytes × Bytes)} (h : Reads text ps)
    (hrest : Reads rest qs) : Reads (text ++ rest) (ps ++ qs) := by
  induction h with
  | nil => exact hrest
  | line first _ ih =>
    rw [List.append_assoc]
    exact .line first ih

namespace Domain

/-- The name, the keys and the values of the domain are letters and digits. -/
structure Plain (domain : Domain) : Prop where
  name : Alphanumeric domain.name
  params : ∀ p ∈ domain.params, Alphanumeric p.1 ∧ Alphanumeric p.2

def openLine (domain : Domain) : Bytes × Bytes := (str "<" ++ domain.name ++ str ">", [])

def closeLine (domain : Domain) : Bytes × Bytes := (str "</" ++ domain.name ++ str ">", [])

mutual

/-- What the parser takes the printed lines for. -/
def printed : ConfigDomain → List (Bytes × Bytes)
  | .node domain children =>
    domain.openLine :: (domain.params ++ printedAll children) ++ [domain.closeLine]

def printedAll : List (Bytes × ConfigDomain) → List (Bytes × Bytes)
  | [] => []
  | (_, d) :: rest => printed d ++ printedAll rest

end

theorem paramsTostr_reads (i : Nat) {params : List (Bytes × Bytes)}
    (plain : ∀ p ∈ params, Alphanumeric p.1 ∧ Alphanumeric p.2) :
    ∃ text, paramsTostr (List.replicate i 9) params = .ok text ∧ Reads text params := by
  induction params with
  | nil => exact ⟨[], rfl, .nil⟩
  | cons p rest ih =>
    obtain ⟨⟨hkey, hvalue⟩, hrest⟩ := List.forall_mem_cons.mp plain
    obtain ⟨text, htext, reads⟩ := ih hrest
    have line : paramTostr (List.replicate i 9) p =
        .ok ((tabs (i + 1)).text ++ p.1 ++ str "=" ++ p.2 ++ str "\n") := by
      rw [paramTostr, hkey.reverseParse, hvalue.reverseParse]
      simp only [bind, Except.bind, List.isEmpty_eq_false_iff.mpr hvalue.nonempty]
      rfl
    refine ⟨_, ?_, (lineReads_param (i + 1) hkey hvalue).reads.append reads⟩
    rw [paramsTostr, line, htext]
    rfl

mutual

theorem tostr_reads (i : Nat) : ∀ {d : ConfigDomain}, (∀ domain ∈ d.values, Plain domain) →
    ∃ text, tostr i d = .ok text ∧ Reads text (printed d)
  | .node domain children, plain => by
    obtain ⟨here, below⟩ := List.forall_mem_cons.mp plain
    obtain ⟨params, hparams, readsParams⟩ := paramsTostr_reads i here.params
    obtain ⟨subdomains, hsub, readsSub⟩ := tostrAll_reads (i + 1) below
    have opening := (lineReads_angle i (.inl rfl) here.name).reads
    have close := (lineReads_angle i (.inr rfl) here.name).reads
    refine ⟨_, ?_, (opening.append (readsParams.append readsSub)).append close⟩
    rw [tostr, here.name.reverseParse, hparams, hsub]
    simp only [bind, Except.bind, pure, Except.pure, List.append_assoc]
    rfl

theorem tostrAll_reads (i : Nat) : ∀ {ds : List (Bytes × ConfigDomain)},
    (∀ domain ∈ Tree.valuesAll ds, Plain domain) →
    ∃ text, tostrAll i ds = .ok text ∧ Reads text (printedAll ds)
  | [], _ => ⟨[], rfl, .nil⟩
  | (_, d) :: rest, plain => by
    obtain ⟨here, later⟩ := List.forall_mem_append.mp plain
    obtain ⟨first, hfirst, readsFirst⟩ := tostr_reads i here
    obtain ⟨text, htext, reads⟩ := tostrAll_reads i later
    refine ⟨first ++ text, ?_, readsFirst.append reads⟩
    rw [tostrAll, hfirst, htext]
    rfl

end

end Domain

/-- The parser stays in the root over the lines that it takes for parameters. -/
theorem Reads.run {text : Bytes} {ps : List (Bytes × Bytes)} (h : Reads text ps) {s : ParseState}
    (valid : s.Valid) (hstack : s.stack = [[]]) :
    ∃ after, s.run ((text.splitOn 10).map readConfigLine) = .ok after ∧ after.stack = [[]] ∧
      ∀ q, paramOf after.root q =
        (lastValue (ps.map fun p => ((([] : List Bytes), p.1), p.2)) q).or (paramOf s.root q) := by
  induction h generalizing s with
  | nil => exact ⟨s, rfl, hstack, fun q => rfl⟩
  | @line line rest p ps first _ ih =>
    obtain ⟨said, hread, nonempty, hassign⟩ := first.read
    obtain ⟨next, hstep, validNext, stackNext, hparam⟩ := valid.assign hstack nonempty hassign
    obtain ⟨after, hrun, hafter, hparams⟩ := ih validNext (stackNext.trans hstack)
    refine ⟨after, ?_, hafter, fun q => ?_⟩
    · rw [List.splitOn_append_cons_self_of_not_mem first.oneLine, List.map_cons, hread,
        ParseState.run, hstep]
      exact hrun
    · rw [hparams, hparam, List.map_cons, lastValue_cons, Option.or_assoc]
      congr 1
      split <;> rfl

/-- What is read of such a text is a root with these parameters and no domains. -/
theorem Reads.parseString {text : Bytes} {ps : List (Bytes × Bytes)} (h : Reads text ps) :
    ∃ config, Config.parseString text = .ok config ∧
      (∀ domains name value, config.paramAt domains name = some value →
        domains = [] ∧ (name, value) ∈ ps) ∧
      ∀ p ∈ ps, ∃ value, config.paramAt [] p.1 = some value := by
  obtain ⟨after, hrun, hstack, hparams⟩ := h.run ParseState.valid_start rfl
  have params (domains : List Bytes) (name : Bytes) : Config.paramAt ⟨after.root⟩ domains name =
      lastValue (ps.map fun p => ((([] : List Bytes), p.1), p.2)) (domains, name) := by
    rw [← Option.or_none (o := lastValue _ _), ← ParseState.paramOf_start]
    exact hparams (domains, name)
  refine ⟨⟨after.root⟩, ?_, fun domains name value hvalue => ?_, fun p hp => ?_⟩
  · rw [← run_getlines] at hrun
    simp only [Config.parseString, parseConfig, hrun, bind, Except.bind, hstack]
    rfl
  · rw [params] at hvalue
    obtain ⟨⟨key, v⟩, hmem, heq⟩ := List.mem_map.mp (mem_of_lastValue hvalue)
    cases heq
    exact ⟨rfl, hmem⟩
  · rw [params, ← Option.ne_none_iff_exists', Ne, lastValue_eq_none, not_not]
    exact List.mem_map.mpr ⟨_, List.mem_map.mpr ⟨p, hp, rfl⟩, rfl⟩

namespace Domain

mutual

theorem mem_printed {q : Bytes × Bytes} : ∀ {d : ConfigDomain}, q ∈ printed d ↔
    ∃ domain ∈ d.values, q = domain.openLine ∨ q ∈ domain.params ∨ q = domain.closeLine
  | .node domain children => by
    have below := mem_printedAll (q := q) (l := children)
    simp only [printed, Tree.values, List.mem_cons, List.mem_append, List.not_mem_nil, or_false,
      below, exists_eq_or_imp]
    rw [← or_assoc, or_right_comm, or_assoc (a := q = domain.openLine)]

theorem mem_printedAll {q : Bytes × Bytes} : ∀ {l : List (Bytes × ConfigDomain)},
    q ∈ printedAll l ↔ ∃ domain ∈ Tree.valuesAll l,
      q = domain.openLine ∨ q ∈ domain.params ∨ q = domain.closeLine
  | [] => by simp [printedAll, Tree.valuesAll]
  | (_, d) :: rest => by
    simp only [printedAll, Tree.valuesAll, List.mem_append, mem_printed, mem_printedAll,
      or_and_right, exists_or]

end

end Domain

namespace Config

/-- The domains of the configuration, all but its root. -/
def domains (config : Config) : List Domain := Tree.valuesAll config.root.children

/-- The root holds no parameters, and what is named elsewhere are letters and digits. -/
structure Plain (config : Config) : Prop where
  root : config.root.value.params = []
  domains : ∀ domain ∈ config.domains, domain.Plain

/-- The text of the configuration is parsed, and gives a configuration with the same answers. -/
def RoundTrips (config : Config) (sDefault : Bytes) : Prop :=
  ∃ again, (do parseString (← config.tostr)) = .ok again ∧
    ∀ sName, again.get sName sDefault = config.get sName sDefault

/-- The line of this key and value is printed: it is a tag, or a parameter of a domain. -/
def Printed (config : Config) (p : Bytes × Bytes) : Prop :=
  ∃ domain ∈ config.domains, p = domain.openLine ∨ p ∈ domain.params ∨ p = domain.closeLine

variable {config : Config}

theorem tostr_reads (plain : config.Plain) :
    ∃ text ps, config.tostr = .ok text ∧ Reads text ps ∧ ∀ p, p ∈ ps ↔ config.Printed p := by
  have sorted (domain : Domain) : domain ∈ Tree.valuesAll
      (config.root.children.insertionSort fun a b => strLe a.1 b.1) ↔ domain ∈ config.domains := by
    rw [domains, Tree.mem_valuesAll, Tree.mem_valuesAll]
    simp only [List.mem_insertionSort]
  obtain ⟨text, htext, reads⟩ := Domain.tostrAll_reads 0 fun domain hdomain =>
    plain.domains domain ((sorted domain).mp hdomain)
  refine ⟨text, _, htext, reads, fun p => ?_⟩
  simp only [Domain.mem_printedAll, sorted, Printed]

/-- The text is parsed, and everything in it becomes a parameter of the root. -/
theorem parseString_tostr (plain : config.Plain) :
    ∃ again, (do parseString (← config.tostr)) = .ok again ∧
      (∀ domains name value, again.paramAt domains name = some value →
        domains = [] ∧ config.Printed (name, value)) ∧
      ∀ p, config.Printed p → ∃ value, again.paramAt [] p.1 = some value := by
  obtain ⟨text, ps, htext, reads, mem⟩ := tostr_reads plain
  obtain ⟨again, hparse, values, keys⟩ := reads.parseString
  refine ⟨again, ?_, fun domains name value h => ?_, fun p hp => keys p ((mem p).mpr hp)⟩
  · rw [htext]
    exact hparse
  · obtain ⟨hroot, hvalue⟩ := values domains name value h
    exact ⟨hroot, (mem _).mp hvalue⟩

theorem printed_cases {key value : Bytes} (h : config.Printed (key, value)) :
    (60 ∈ key ∧ value = []) ∨ ∃ domain ∈ config.domains, (key, value) ∈ domain.params := by
  obtain ⟨domain, hdomain, htag | hparam | htag⟩ := h
  · cases htag
    exact .inl ⟨List.mem_cons_self, rfl⟩
  · exact .inr ⟨domain, hdomain, hparam⟩
  · cases htag
    exact .inl ⟨List.mem_cons_self, rfl⟩

theorem Plain.paramAt_root (plain : config.Plain) (name : Bytes) :
    config.paramAt [] name = none := by
  simp [paramAt, searchDomain, Domain.param, plain.root]

theorem Plain.paramAt_none (plain : config.Plain)
    (noParams : ∀ domain ∈ config.domains, domain.params = []) (domains : List Bytes)
    (name : Bytes) : config.paramAt domains name = none := by
  cases hdomain : config.root.valueAt domains with
  | none => simp [paramAt, searchDomain, hdomain]
  | some domain =>
    have empty : domain.params = [] := by
      have mem := Tree.mem_values_of_valueAt hdomain
      obtain ⟨⟨root, children⟩⟩ := config
      rcases List.mem_cons.mp mem with rfl | below
      · exact plain.root
      · exact noParams domain below
    simp [paramAt, searchDomain, hdomain, Domain.param, empty]

/-- The root of the configuration answers with the default, so that a line that is printed must have
the default for its value. -/
theorem RoundTrips.printed_default {sDefault : Bytes} (same : config.RoundTrips sDefault)
    (plain : config.Plain) {p : Bytes × Bytes} (printed : config.Printed p) (clean : 93 ∉ p.1) :
    config.Printed (p.1, sDefault) := by
  obtain ⟨again, hagain, values, keys⟩ := parseString_tostr plain
  obtain ⟨again', hagain', same⟩ := same
  obtain rfl : again' = again := Except.ok.inj (hagain'.symm.trans hagain)
  obtain ⟨value, hvalue⟩ := keys p printed
  have path := parseDomainName_paramPath [] clean
  have atRoot := same (paramPath [] p.1)
  rw [get_of_path path, get_of_path path, List.map_nil, hvalue, plain.paramAt_root] at atRoot
  obtain rfl : value = sDefault := Except.ok.inj atRoot
  exact (values _ _ _ hvalue).2

/-- A tag is found as a parameter without a value. -/
theorem RoundTrips.no_domains {sDefault : Bytes} (same : config.RoundTrips sDefault)
    (plain : config.Plain) (nonempty : sDefault ≠ []) : config.domains = [] := by
  by_contra some
  obtain ⟨domain, hdomain⟩ := List.exists_mem_of_ne_nil _ some
  have hname := (plain.domains domain hdomain).name
  have clean : 93 ∉ domain.openLine.1 := by
    have brackets : 93 ∉ str "<" ∧ 93 ∉ str ">" := by decide
    simp only [Domain.openLine, List.mem_append, not_or]
    exact ⟨⟨brackets.1, hname.not_mem (by decide)⟩, brackets.2⟩
  rcases printed_cases (same.printed_default plain ⟨domain, hdomain, .inl rfl⟩ clean) with
    ⟨-, hempty⟩ | ⟨other, hother, hparam⟩
  · exact nonempty hempty
  · have hkey := ((plain.domains other hother).params _ hparam).1
    exact hkey.not_mem (c := 60) (by decide) List.mem_cons_self

/-- A parameter of a domain is found in the root, with a value that is not the default there. -/
theorem RoundTrips.no_params {sDefault : Bytes} (same : config.RoundTrips sDefault)
    (plain : config.Plain) {domain : Domain} (hdomain : domain ∈ config.domains) :
    domain.params = [] := by
  by_contra some
  obtain ⟨p, hp⟩ := List.exists_mem_of_ne_nil _ some
  have hkey := ((plain.domains domain hdomain).params p hp).1
  have clean : 93 ∉ p.1 := hkey.not_mem (by decide)
  rcases printed_cases (same.printed_default plain ⟨domain, hdomain, .inr (.inl hp)⟩ clean) with
    ⟨htag, -⟩ | ⟨other, hother, hparam⟩
  · exact hkey.not_mem (by decide) htag
  · have nonempty := ((plain.domains other hother).params _ hparam).2.nonempty
    rw [same.no_domains plain nonempty] at hdomain
    cases hdomain

/-- The configuration is read back with the same answers exactly where no domain of it holds a
parameter, and, where the default is not empty, exactly where it has no domain. -/
theorem roundTrips_iff (plain : config.Plain) (sDefault : Bytes) :
    config.RoundTrips sDefault ↔
      (∀ domain ∈ config.domains, domain.params = []) ∧ (sDefault ≠ [] → config.domains = []) := by
  constructor
  · intro same
    exact ⟨fun domain hdomain => same.no_params plain hdomain, same.no_domains plain⟩
  · intro ⟨noParams, noDomains⟩
    obtain ⟨again, hagain, values, -⟩ := parseString_tostr plain
    refine ⟨again, hagain, get_congr fun domains name => ?_⟩
    rw [plain.paramAt_none noParams]
    cases hvalue : again.paramAt domains name with
    | none => rfl
    | some value =>
      obtain ⟨-, printed⟩ := values _ _ _ hvalue
      have noDefault : sDefault = [] := by
        by_contra nonempty
        obtain ⟨domain, hdomain, -⟩ := printed
        rw [noDomains nonempty] at hdomain
        cases hdomain
      rcases printed_cases printed with ⟨-, hempty⟩ | ⟨other, hother, hparam⟩
      · rw [hempty, noDefault]
        rfl
      · rw [noParams other hother] at hparam
        cases hparam

theorem roundTrips_iff_example :
    let config : Config := ⟨.node (.new []) [(str "main", .leaf (.new (str "main")))]⟩
    config.Plain ∧ config.RoundTrips [] := by
  have name : Alphanumeric (str "main") := ⟨by decide, by decide⟩
  have plain : Plain ⟨.node (.new []) [(str "main", .leaf (.new (str "main")))]⟩ := by
    refine ⟨rfl, fun domain hdomain => ?_⟩
    obtain rfl : domain = .new (str "main") := List.mem_singleton.mp hdomain
    exact ⟨name, fun p hp => by cases hp⟩
  refine ⟨plain, (roundTrips_iff plain []).mpr ⟨fun domain hdomain => ?_, fun h => absurd rfl h⟩⟩
  obtain rfl : domain = .new (str "main") := List.mem_singleton.mp hdomain
  rfl

/-- The tags are printed in angle brackets and read in square ones, so that a parameter of a domain
is not found again. -/
theorem not_roundTrips :
    ∃ config, Config.parseString (str "[a]\nk=v\n[/a]") = .ok config ∧ config.Plain ∧
      ¬config.RoundTrips [] := by
  let domain : Domain := ⟨str "a", [(str "k", str "v")], [str "k=v"]⟩
  refine ⟨⟨.node (.new []) [(str "a", .leaf domain)]⟩, rfl, ⟨rfl, fun d hd => ?_⟩, ?_⟩
  · obtain rfl : d = domain := List.mem_singleton.mp hd
    refine ⟨⟨by decide, by decide⟩, fun p hp => ?_⟩
    obtain rfl : p = (str "k", str "v") := List.mem_singleton.mp hp
    exact ⟨⟨by decide, by decide⟩, by decide, by decide⟩
  · intro ⟨again, hagain, same⟩
    obtain rfl := Except.ok.inj hagain
    exact absurd (same (str "/a/[k]")) (by decide)

/-- `joinConfig` keeps no domain of the two configurations that it joins. -/
theorem joinConfig_paramAt {cf : Config} (plain : config.Plain) (other : cf.Plain)
    (bUpdate : Bool) :
    ∃ joined, config.joinConfig cf bUpdate = .ok joined ∧
      ∀ domains name, domains ≠ [] → joined.paramAt domains name = none := by
  obtain ⟨text, ps, htext, reads, -⟩ := tostr_reads plain
  obtain ⟨text', qs, htext', reads', -⟩ := tostr_reads other
  have joins {buffer : Bytes} {rs : List (Bytes × Bytes)} (h : Reads buffer rs) :
      ∃ joined, parseString buffer = .ok joined ∧
        ∀ domains name, domains ≠ [] → joined.paramAt domains name = none := by
    obtain ⟨joined, hparse, values, -⟩ := h.parseString
    refine ⟨joined, hparse, fun domains name below => ?_⟩
    cases hvalue : joined.paramAt domains name with
    | none => rfl
    | some value => exact absurd (values _ _ _ hvalue).1 below
  rw [joinConfig, htext, htext']
  cases bUpdate
  · exact joins (reads'.append reads)
  · exact joins (reads.append reads')

end Config

end ABDyeing
