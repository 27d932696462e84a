import Mathlib.Data.List.DropRight
import ABDyeing.Lib.Outcome
import ABDyeing.Lib.Tree
import ABDyeing.Util

/-! `INV_ConfigDomain`, and the lookups of `INV_Config`.  A domain is a tree whose nodes hold the
parameters and the lines of one domain each; a path such as `/main/fresh/[topic]` names a domain and
a parameter of it. -/

namespace ABDyeing

open Lib

inductive ConfigException
  | config (buffer : Bytes)
  | noParam (buffer : Bytes)
  deriving DecidableEq

def isBlank (c : UInt8) : Bool := c = 32 || c = 13 || c = 10 || c = 9

/-- `INV_Util::trim`, of its default characters. -/
def trim (s : Bytes) : Bytes := (s.dropWhile isBlank).rdropWhile isBlank

/-- What a domain holds itself: `params` are `_param`, in the order of `_key`. -/
structure Domain where
  name : Bytes
  params : List (Bytes × Bytes)
  lines : List Bytes
  deriving DecidableEq

/-- `INV_ConfigDomain`: the children are `_subdomain`, in the order of `_domain`. -/
abbrev ConfigDomain := Tree Bytes Domain

structure DomainPath where
  domains : List Bytes
  param : Bytes

/-- `INV_ConfigDomain::parseDomainName`.  Where the `]` stands before the `[`, the length of the
parameter has wrapped around. -/
def parseDomainName (path : Bytes) (withParam : Bool) : Outcome ConfigException DomainPath :=
  let invalid : Abort ConfigException := .exception (.config
    (str "[INV_Config::parseDomainName] : param path '" ++ path ++ str "' is invalid!"))
  let relative : Abort ConfigException := .exception (.config
    (str "[INV_Config::parseDomainName] : param path '" ++ path ++ str "' must start with '/'!"))
  if withParam then
    match findFirstOf path (str "[") 0 with
    | none => .error invalid
    | some pos1 =>
      if path.head? = some 47 then
        match findFirstOf path (str "]") 0 with
        | none => .error invalid
        | some pos2 =>
          .ok ⟨sepstr (substr path 1 (pos1 - 1)) (str "/") false,
            if pos1 < pos2 then substr path (pos1 + 1) (pos2 - pos1 - 1) else path.drop (pos1 + 1)⟩
      else .error relative
  else if path.head? = some 47 then .ok ⟨sepstr (path.drop 1) (str "/") false, []⟩
  else .error relative

namespace Domain

def new (sLine : Bytes) : Domain := ⟨trim sLine, [], []⟩

def param (domain : Domain) (name : Bytes) : Option Bytes :=
  (domain.params.find? fun p => decide (p.1 = name)).map Prod.snd

def getParamValue (domain : Domain) (name : Bytes) : Outcome ConfigException Bytes :=
  match domain.param name with
  | some value => .ok value
  | none => .error (.exception (.noParam
      (str "[INV_ConfigDomain::getParamValue] param '" ++ name ++ str "' not exits!")))

def setParamValue (name value : Bytes) (domain : Domain) : Domain :=
  { domain with
    params := domain.params.filter (fun p => decide (p.1 ≠ name)) ++ [(name, value)] }

def parseError (s escape : Bytes) : Abort ConfigException :=
  .exception (.config (str "[INV_ConfigDomain::parse] '" ++ s ++ str "' is invalid, '" ++ escape ++
    str "' couldn't be parse!"))

/-- What a backslash and `c` stand for. -/
def unescape (s : Bytes) (c : UInt8) : Outcome ConfigException UInt8 :=
  match c with
  | 92 => .ok 92
  | 114 => .ok 13
  | 110 => .ok 10
  | 116 => .ok 9
  | 61 => .ok 61
  | c => .error (parseError s [92, c])

/-- The loop of `INV_ConfigDomain::parse` over what is left of `s`. -/
def parseFrom (s : Bytes) : Bytes → Outcome ConfigException Bytes
  | [] => .ok []
  | 92 :: [] => .error (parseError s [92])
  | 92 :: c :: rest => do
    let param ← unescape s c
    return param :: (← parseFrom s rest)
  | c :: rest => return c :: (← parseFrom s rest)

/-- `INV_ConfigDomain::parse`, which resolves the escapes. -/
def parse (s : Bytes) : Outcome ConfigException Bytes := parseFrom s s

/-- The position of the first `=` that does not stand behind a backslash; `last` is the character
before position `pos`. -/
def assignPos (last : Option UInt8) (pos : Nat) : Bytes → Option Nat
  | [] => none
  | c :: rest =>
    if c = 61 ∧ last ≠ some 92 then some pos else assignPos (some c) (pos + 1) rest

/-- The value behind the `=` at position `pos`. -/
def lineValue (line : Bytes) (pos : Nat) : Outcome ConfigException Bytes :=
  if pos < line.length - 1 then parse (trim (line.drop (pos + 1))) else .ok []

/-- `setParamValue` of a line. -/
def setParamLine (line : Bytes) (domain : Domain) : Outcome ConfigException Domain :=
  if line.isEmpty then .ok domain
  else
    let domain := { domain with lines := domain.lines ++ [line] }
    match assignPos none 0 line with
    | none => .ok (domain.setParamValue line [])
    | some pos => do
      let name ← parse (trim (substr line 0 pos))
      let value ← lineValue line pos
      return domain.setParamValue name value

theorem find_erased (name other : Bytes) (params : List (Bytes × Bytes)) :
    (params.filter fun p => decide (p.1 ≠ name)).find? (fun p => decide (p.1 = other)) =
      if other = name then none else params.find? fun p => decide (p.1 = other) := by
  induction params with
  | nil => simp
  | cons p rest ih =>
    by_cases hp : p.1 = name
    · rw [List.filter_cons_of_neg (by simp [hp]), ih]
      by_cases h : other = name
      · simp [h]
      · simp [h, hp, Ne.symm h]
    · rw [List.filter_cons_of_pos (by simp [hp]), List.find?_cons, List.find?_cons, ih]
      by_cases h : p.1 = other
      · simp [h, h ▸ hp]
      · simp [h]

theorem param_setParamValue (name value : Bytes) (domain : Domain) (other : Bytes) :
    (domain.setParamValue name value).param other =
      if other = name then some value else domain.param other := by
  rw [param, setParamValue, List.find?_append, find_erased, param]
  by_cases h : other = name
  · simp [h]
  · simp [h, Ne.symm h]

end Domain

/-- `INV_Config`, by its root. -/
structure Config where
  root : ConfigDomain

namespace Config

def new : Config := ⟨.leaf (.new [])⟩

def searchDomain (config : Config) (domains : List Bytes) : Option Domain :=
  config.root.valueAt domains

/-- `INV_Config::get`, which answers with the default where the domain or the parameter is missing,
and throws where the path is invalid. -/
def get (config : Config) (sName sDefault : Bytes) : Outcome ConfigException Bytes :=
  catching (do
      let dp ← parseDomainName sName true
      match config.searchDomain dp.domains with
      | none => .error (.exception (.noParam
          (str "[INV_Config::get] path '" ++ sName ++ str "' not exits!")))
      | some domain => domain.getParamValue dp.param)
    fun
      | .noParam _ => .ok sDefault
      | e => .error (.exception e)

def getDomainLine (config : Config) (path : Bytes) : Outcome ConfigException (List Bytes) := do
  let dp ← parseDomainName path false
  match config.searchDomain dp.domains with
  | none => return []
  | some domain => return domain.lines

/-- The parameter of a domain; the first argument is the path of the domain. -/
def paramAt (config : Config) (domains : List Bytes) (name : Bytes) : Option Bytes :=
  (config.searchDomain domains).bind (Domain.param · name)

/-- At a valid path `get` answers with the parameter or the default. -/
theorem get_of_path {config : Config} {sName : Bytes} {dp : DomainPath}
    (h : parseDomainName sName true = .ok dp) (sDefault : Bytes) :
    config.get sName sDefault = .ok ((config.paramAt dp.domains dp.param).getD sDefault) := by
  simp only [get, h, bind, Except.bind, paramAt]
  cases config.searchDomain dp.domains with
  | none => rfl
  | some domain =>
    simp only [Domain.getParamValue, Option.bind_some]
    cases domain.param dp.param <;> rfl

/-- What `get` answers depends on the parameters alone. -/
theorem get_congr {a b : Config} {sDefault : Bytes}
    (same : ∀ domains name,
      (a.paramAt domains name).getD sDefault = (b.paramAt domains name).getD sDefault)
    (sName : Bytes) : a.get sName sDefault = b.get sName sDefault := by
  cases h : parseDomainName sName true with
  | ok dp => rw [get_of_path h, get_of_path h, same]
  | error e => simp only [get, h, bind, Except.bind]

end Config

end ABDyeing
