import ABDyeing.Config.Print
import ABDyeing.Fresh.Brokers

/-! Copies of a configuration, and what is asked of a configuration beside its single parameters.  A
copy leaves out the lines: it answers all questions as the original does, but for that one. -/

namespace ABDyeing

open Lib

/-- `INV_ConfigDomain::operator=` of one domain, which does not copy `_line`. -/
def Domain.copy (domain : Domain) : Domain := { domain with lines := [] }

namespace Config

/-- `INV_Config::operator=`, where a domain is copied with its clones of the domains below it. -/
def copy (config : Config) : Config := ⟨config.root.map Domain.copy⟩

/-- `operator[]`, which throws where `get` answers with its default. -/
def subscript (config : Config) (path : Bytes) : Outcome ConfigException Bytes := do
  let dp ← parseDomainName path true
  match config.searchDomain dp.domains with
  | none => .error (.exception (.noParam
      (str "[INV_Config::operator[]] path '" ++ path ++ str "' not exits!")))
  | some domain => domain.getParamValue dp.param

/-- `getDomainMap`; `none` is `false`. -/
def getDomainMap (config : Config) (path : Bytes) :
    Outcome ConfigException (Option (Bytes → Option Bytes)) := do
  let dp ← parseDomainName path false
  match config.searchDomain dp.domains with
  | none => return none
  | some domain => return some domain.param

def getDomainKey (config : Config) (path : Bytes) : Outcome ConfigException (List Bytes) := do
  let dp ← parseDomainName path false
  match config.searchDomain dp.domains with
  | none => return []
  | some domain => return domain.params.map (·.1)

/-- `getDomainVector`, with what it returns and what it leaves in `vtDomains`. -/
def getDomainVector (config : Config) (path : Bytes) (vtDomains : List Bytes) :
    Outcome ConfigException (Bool × List Bytes) := do
  let dp ← parseDomainName path false
  if dp.domains.isEmpty then
    let vtDomains := config.root.children.map (·.1)
    return (!vtDomains.isEmpty, vtDomains)
  else
    match config.root.find dp.domains with
    | none => return (false, vtDomains)
    | some subdomain => return (true, subdomain.children.map (·.1))

end Config

/-- Two configurations that no question tells apart, but for the lines. -/
structure SameAnswers (a b : Config) : Prop where
  get : ∀ sName sDefault, a.get sName sDefault = b.get sName sDefault
  subscript : ∀ path, a.subscript path = b.subscript path
  domainMap : ∀ path, a.getDomainMap path = b.getDomainMap path
  domainKey : ∀ path, a.getDomainKey path = b.getDomainKey path
  domainVector : ∀ path vtDomains,
    a.getDomainVector path vtDomains = b.getDomainVector path vtDomains
  tostr : a.tostr = b.tostr

namespace Domain

mutual

theorem tostr_copy (i : Nat) : ∀ d : ConfigDomain, tostr i (d.map copy) = tostr i d
  | .node domain children => by
    have subdomains := tostrAll_copy (i + 1) children
    rw [Lib.Tree.map, tostr, subdomains, tostr]
    rfl

theorem tostrAll_copy (i : Nat) : ∀ children : List (Bytes × ConfigDomain),
    tostrAll i (Tree.mapAll copy children) = tostrAll i children
  | [] => rfl
  | (name, d) :: rest => by
    rw [Tree.mapAll, tostrAll, tostr_copy i d, tostrAll_copy i rest, tostrAll]

end

end Domain

namespace Config

variable (config : Config)

theorem searchDomain_copy (domains : List Bytes) :
    config.copy.searchDomain domains = (config.searchDomain domains).map Domain.copy :=
  Tree.valueAt_map Domain.copy config.root domains

/-- The names of the domains below one are those of its clones. -/
theorem names_copy (d : ConfigDomain) :
    (d.map Domain.copy).children.map (·.1) = d.children.map (·.1) := by
  obtain ⟨domain, children⟩ := d
  rw [Lib.Tree.map, Tree.children_node, Tree.mapAll_eq, List.map_map]
  rfl

theorem tostr_copy : config.copy.tostr = config.tostr := by
  obtain ⟨domain, children⟩ := config
  -- The clones are sorted as the domains are, by their names.
  have sorted := List.map_insertionSort (fun a b : Bytes × ConfigDomain => strLe a.1 b.1 = true)
    (fun a b : Bytes × ConfigDomain => strLe a.1 b.1 = true)
    (fun c => (c.1, c.2.map Domain.copy)) children fun _ _ _ _ => Iff.rfl
  rw [tostr, copy, Lib.Tree.map, Tree.children_node, Tree.mapAll_eq, ← sorted,
    ← Tree.mapAll_eq, Domain.tostrAll_copy]
  rfl

theorem sameAnswers_copy : SameAnswers config.copy config where
  get sName sDefault := by
    refine get_congr (fun domains name => ?_) sName
    rw [paramAt, searchDomain_copy, paramAt]
    cases config.searchDomain domains <;> rfl
  subscript path := by
    simp only [subscript, searchDomain_copy]
    cases parseDomainName path true with
    | error e => rfl
    | ok dp => cases h : config.searchDomain dp.domains <;> simp [bind, Except.bind, h]; rfl
  domainMap path := by
    simp only [getDomainMap, searchDomain_copy]
    cases parseDomainName path false with
    | error e => rfl
    | ok dp => cases h : config.searchDomain dp.domains <;> simp [bind, Except.bind, h]; rfl
  domainKey path := by
    simp only [getDomainKey, searchDomain_copy]
    cases parseDomainName path false with
    | error e => rfl
    | ok dp => cases h : config.searchDomain dp.domains <;> simp [bind, Except.bind, h]; rfl
  domainVector path vtDomains := by
    simp only [getDomainVector, copy, Tree.find_map, names_copy]
    cases parseDomainName path false with
    | error e => rfl
    | ok dp => cases h : config.root.find dp.domains <;> simp [bind, Except.bind, h, names_copy]
  tostr := tostr_copy config

/-- The one question that a copy answers otherwise. -/
theorem getDomainLine_copy (path : Bytes) :
    config.copy.getDomainLine path = (config.getDomainLine path).map fun _ => [] := by
  simp only [getDomainLine, searchDomain_copy]
  cases parseDomainName path false with
  | error e => rfl
  | ok dp => cases h : config.searchDomain dp.domains <;> simp [bind, Except.bind, h] <;> rfl

theorem joinConfig_copy (cf : Config) (bUpdate : Bool) :
    config.copy.joinConfig cf.copy bUpdate = config.joinConfig cf bUpdate := by
  rw [joinConfig, tostr_copy, tostr_copy, joinConfig]

end Config

/-- A copy answers as the original does, and joins as it does, but has lost the lines: no copy of a
configuration names a broker, and `loadbase` gives up on each of them. -/
theorem copy_answers (config cf : Config) :
    SameAnswers config.copy config ∧
      (∀ bUpdate, config.copy.joinConfig cf.copy bUpdate = config.joinConfig cf bUpdate) ∧
      (∀ path, config.copy.getDomainLine path = (config.getDomainLine path).map fun _ => []) ∧
      loadbase config.copy = .ok none := by
  refine ⟨config.sameAnswers_copy, config.joinConfig_copy cf, config.getDomainLine_copy, ?_⟩
  have path : parseDomainName brokersPath false =
      .ok ⟨[str "main", str "fresh", str "brokers"], []⟩ := rfl
  have empty : config.copy.getDomainLine brokersPath = .ok [] := by
    rw [Config.getDomainLine_copy, Config.getDomainLine, path]
    simp only [bind, Except.bind]
    cases config.searchDomain [str "main", str "fresh", str "brokers"] <;> rfl
  rw [loadbase, empty]
  rfl

end ABDyeing
