import ABDyeing.Config.Parse
import ABDyeing.Lib.Escape

/-! The lines of a configuration as they are written, tags and parameters with blanks around them,
and the paths that name a parameter: what the parser takes each of them for. -/

namespace ABDyeing

open Lib

theorem isBlank_cases {c : UInt8} (blank : isBlank c = true) :
    c = 32 ∨ c = 13 ∨ c = 10 ∨ c = 9 := by
  simpa only [isBlank, Bool.or_eq_true, decide_eq_true_eq, or_assoc] using blank

section Trim

variable {p : UInt8 → Bool}

theorem rdropWhile_append_of_all {right : Bytes} (blank : ∀ c ∈ right, p c = true) (s : Bytes) :
    (s ++ right).rdropWhile p = s.rdropWhile p := by
  rw [List.rdropWhile, List.rdropWhile, List.reverse_append,
    List.dropWhile_append_of_pos fun c hc => blank c (List.mem_reverse.mp hc)]

theorem rdropWhile_append_cons {c : UInt8} (other : p c = false) (s t : Bytes) :
    (s ++ c :: t).rdropWhile p = s ++ c :: t.rdropWhile p := by
  rw [List.rdropWhile, List.rdropWhile, List.reverse_append, List.reverse_cons, List.append_assoc,
    List.dropWhile_append]
  split
  · rename_i none
    rw [List.isEmpty_iff.mp none]
    simp [other]
  · simp

/-- Blanks around a text do not count. -/
theorem trim_pad {left right : Bytes} (hleft : ∀ c ∈ left, isBlank c = true)
    (hright : ∀ c ∈ right, isBlank c = true) (s : Bytes) : trim (left ++ s ++ right) = trim s := by
  rw [trim, trim, List.append_assoc, List.dropWhile_append_of_pos hleft, List.dropWhile_append]
  split
  · rename_i none
    rw [List.isEmpty_iff.mp none, List.dropWhile_eq_nil_iff.mpr hright]
  · exact rdropWhile_append_of_all hright _

theorem trim_blank {s : Bytes} (blank : ∀ c ∈ s, isBlank c = true) : trim s = [] := by
  rw [trim, List.dropWhile_eq_nil_iff.mpr blank, List.rdropWhile_nil]

theorem trim_rdropWhile (s : Bytes) : trim (s.rdropWhile isBlank) = trim s := by
  have parts := trim_pad (List.forall_mem_nil _)
    (fun c (hc : c ∈ s.rtakeWhile isBlank) => List.mem_rtakeWhile_imp hc) (s.rdropWhile isBlank)
  rwa [List.nil_append, List.rdropWhile_append_rtakeWhile, eq_comm] at parts

theorem mem_of_mem_trim {c : UInt8} {s : Bytes} (h : c ∈ trim s) : c ∈ s :=
  (List.dropWhile_suffix isBlank).subset ((List.rdropWhile_prefix isBlank _).subset h)

/-- A text that begins and ends with something else than a blank is left as it is. -/
theorem trim_eq_self {c : UInt8} {s : Bytes} (first : isBlank c = false)
    (last : ∀ h : c :: s ≠ [], isBlank ((c :: s).getLast h) = false) : trim (c :: s) = c :: s := by
  rw [trim, List.dropWhile_cons_of_neg (by simp [first]), List.rdropWhile_eq_self_iff]
  intro h
  simp [last h]

theorem trim_eq_of_ends {s : Bytes} (first : ∀ c, s.head? = some c → isBlank c = false)
    (last : ∀ c, s.getLast? = some c → isBlank c = false) : trim s = s := by
  cases s with
  | nil => rfl
  | cons c rest =>
    apply trim_eq_self
    · exact first c rfl
    · exact fun h => last _ (List.getLast?_eq_some_getLast h)

/-- A text that is trimmed does not begin with a blank. -/
theorem isBlank_head {c : UInt8} {s : Bytes} (unpadded : trim (c :: s) = c :: s) :
    isBlank c = false := by
  by_contra blank
  rw [Bool.not_eq_false] at blank
  rw [trim, List.dropWhile_cons_of_pos (by simp [blank])] at unpadded
  have shorter := (List.rdropWhile_prefix isBlank (s.dropWhile isBlank)).length_le
  have suffix := (List.dropWhile_suffix isBlank (l := s)).length_le
  rw [unpadded, List.length_cons] at shorter
  omega

end Trim

/-- Blanks that may stand around what a line says. -/
structure Padding where
  text : Bytes
  blank : ∀ c ∈ text, isBlank c = true
  oneLine : 10 ∉ text

/-- The name of a domain, as it may stand in a tag and in a path. -/
structure DomainName where
  text : Bytes
  nonempty : text ≠ []
  unpadded : trim text = text
  clean : 91 ∉ text ∧ 93 ∉ text ∧ 47 ∉ text
  oneLine : 10 ∉ text

/-- A line `key=value`, with blanks around the key. -/
structure ParamLine where
  left : Padding
  key : Bytes
  mid : Padding
  value : Bytes
  nonempty : key ≠ []
  unpadded : trim key = key
  clean : 61 ∉ key ∧ 93 ∉ key
  start : key.head? ≠ some 91 ∧ key.head? ≠ some 35
  noBackslash : 92 ∉ key ∧ 92 ∉ value
  oneLine : 10 ∉ key ∧ 10 ∉ value

def openTag (name : Bytes) : Bytes := str "[" ++ name ++ str "]"

def closeTag (name : Bytes) : Bytes := str "[/" ++ name ++ str "]"

def ParamLine.line (param : ParamLine) : Bytes :=
  param.left.text ++ param.key ++ param.mid.text ++ str "=" ++ param.value

theorem findFirstOf_append {s rest : Bytes} {c : UInt8} (clean : c ∉ s) :
    findFirstOf (s ++ c :: rest) [c] 0 = some s.length := by
  have before : s.findIdx? ([c].contains ·) = none := by
    rw [List.findIdx?_eq_none_iff]
    intro x hx
    have : x ≠ c := ne_of_mem_of_not_mem hx clean
    simpa using this
  rw [findFirstOf, List.drop_zero, List.findIdx?_append, before, List.findIdx?_cons]
  simp

/-- What stands between the brackets of a tag is the name of a domain, behind a slash where the tag
closes it. -/
theorem readConfigLine_tag (left right : Padding) {body : Bytes} (nonempty : body ≠ [])
    (clean : 93 ∉ body) :
    readConfigLine (left.text ++ (91 :: body ++ [93]) ++ right.text) =
      if body.head? = some 47 then .close (body.drop 1) else .opening body := by
  have trimmed : trim (left.text ++ (91 :: body ++ [93]) ++ right.text) = 91 :: (body ++ [93]) := by
    rw [trim_pad left.blank right.blank]
    exact trim_eq_self (by decide) fun h => by simp; decide
  have posl : findFirstOf (91 :: (body ++ [93])) (str "]") 0 = some (body.length + 1) :=
    findFirstOf_append (s := 91 :: body) (by simpa using clean)
  have head : (body ++ [93]).head? = body.head? := List.head?_append_of_ne_nil body nonempty
  rw [readConfigLine, trimmed]
  simp only [posl, head]
  obtain ⟨c, rest, rfl⟩ := List.exists_cons_of_ne_nil nonempty
  simp [substr]

theorem readConfigLine_opening (left right : Padding) (name : DomainName) :
    readConfigLine (left.text ++ openTag name.text ++ right.text) = .opening name.text := by
  have noSlash : name.text.head? ≠ some 47 := fun h => name.clean.2.2 (List.mem_of_head? h)
  have tag := readConfigLine_tag left right name.nonempty name.clean.2.1
  rwa [if_neg noSlash] at tag

theorem readConfigLine_close (left right : Padding) (name : DomainName) :
    readConfigLine (left.text ++ closeTag name.text ++ right.text) = .close name.text :=
  have clean : 93 ∉ 47 :: name.text := by simpa using name.clean.2.1
  readConfigLine_tag left right (List.cons_ne_nil _ _) clean

theorem readConfigLine_blank (pad : Padding) : readConfigLine pad.text = .skip := by
  rw [readConfigLine, trim_blank pad.blank]

theorem readConfigLine_comment (pad : Padding) (text : Bytes) :
    readConfigLine (pad.text ++ str "#" ++ text) = .skip := by
  have trimmed : trim (pad.text ++ str "#" ++ text) = 35 :: text.rdropWhile isBlank := by
    rw [trim, List.append_assoc, List.dropWhile_append_of_pos pad.blank]
    exact rdropWhile_append_cons (s := []) (by decide) text
  rw [readConfigLine, trimmed]
  rfl

/-- A line that is neither a tag nor a comment is a parameter. -/
theorem readConfigLine_param {line : Bytes} {c : UInt8} {rest : Bytes}
    (trimmed : trim line = c :: rest) (bracket : c ≠ 91) (hash : c ≠ 35) :
    readConfigLine line = .param (c :: rest) := by
  rw [readConfigLine, trimmed]
  split
  · rename_i h
    cases h
  · rename_i h
    exact absurd (List.cons.inj h).1 hash
  · rename_i h
    exact absurd (List.cons.inj h).1 bracket
  · rfl

namespace Domain

theorem parseFrom_plain (s : Bytes) {t : Bytes} (plain : 92 ∉ t) : parseFrom s t = .ok t := by
  induction t with
  | nil => rfl
  | cons c rest ih =>
    obtain ⟨hc, hrest⟩ := not_or.mp (mt List.mem_cons.mpr plain)
    rw [parseFrom, ih hrest]
    · rfl
    · exact fun h _ => hc h.symm
    · exact fun _ _ h _ => hc h.symm

/-- The search goes over a text in which every `=` stands behind a backslash. -/
theorem assignPos_guarded {last : Option UInt8} {s : Bytes} (guarded : Guarded 92 61 last s)
    (pos : Nat) (rest : Bytes) :
    assignPos last pos (s ++ rest) = assignPos (s.getLast?.or last) (pos + s.length) rest := by
  induction s generalizing last pos with
  | nil => rfl
  | cons c s ih =>
    rw [List.cons_append, assignPos, if_neg fun h => h.2 (guarded.1 h.1), ih guarded.2,
      List.getLast?_cons, List.length_cons, Nat.add_assoc, Nat.add_comm 1]
    cases s.getLast? <;> rfl

theorem assignPos_append {last : Option UInt8} (hlast : last ≠ some 92) (pos : Nat) {s : Bytes}
    (clean : 61 ∉ s ∧ 92 ∉ s) (rest : Bytes) :
    assignPos last pos (s ++ 61 :: rest) = some (pos + s.length) := by
  rw [assignPos_guarded (guarded_of_not_mem clean.1)]
  refine if_pos ⟨rfl, ?_⟩
  cases hc : s.getLast? with
  | none => exact hlast
  | some c => exact fun same => clean.2 (List.mem_of_getLast? (hc.trans same))

theorem assignPos_eq_none {last : Option UInt8} {s : Bytes} (guarded : Guarded 92 61 last s)
    (pos : Nat) : assignPos last pos s = none := by
  have search := assignPos_guarded guarded pos []
  rwa [List.append_nil] at search

end Domain

namespace ParamLine

/-- A parameter line as the parser sees it, without the blanks around it. -/
def trimmed (param : ParamLine) : Bytes :=
  param.key ++ param.mid.text ++ 61 :: param.value.rdropWhile isBlank

theorem trim_line (param : ParamLine) : trim param.line = param.trimmed := by
  obtain ⟨c, rest, hkey⟩ := List.exists_cons_of_ne_nil param.nonempty
  have first : isBlank c = false := isBlank_head (hkey ▸ param.unpadded)
  have parts : param.line =
      param.left.text ++ (c :: (rest ++ param.mid.text ++ 61 :: param.value)) := by
    simp only [line, hkey, List.append_assoc, List.cons_append]
    rfl
  rw [trim, parts, List.dropWhile_append_of_pos param.left.blank,
    List.dropWhile_cons_of_neg (by simp [first]), trimmed, hkey]
  exact rdropWhile_append_cons (s := c :: (rest ++ param.mid.text)) (by decide) param.value

theorem read (param : ParamLine) : readConfigLine param.line = .param param.trimmed := by
  obtain ⟨c, rest, hkey⟩ := List.exists_cons_of_ne_nil param.nonempty
  have bracket : c ≠ 91 := fun h => param.start.1 (by rw [hkey, h]; rfl)
  have hash : c ≠ 35 := fun h => param.start.2 (by rw [hkey, h]; rfl)
  have parts : param.trimmed =
      c :: (rest ++ param.mid.text ++ 61 :: param.value.rdropWhile isBlank) := by
    rw [trimmed, hkey]
    rfl
  rw [parts]
  exact readConfigLine_param (param.trim_line.trans parts) bracket hash

theorem assignment (param : ParamLine) :
    Domain.assignment param.trimmed = .ok (param.key, trim param.value) := by
  have midClean (c : UInt8) (hc : isBlank c = false) : c ∉ param.mid.text := fun hmem =>
    Bool.noConfusion (hc.symm.trans (param.mid.blank c hmem))
  have pos : Domain.assignPos none 0 param.trimmed = some (param.key ++ param.mid.text).length := by
    rw [trimmed, Domain.assignPos_append (by simp) 0, Nat.zero_add]
    simp only [List.mem_append, not_or]
    exact ⟨⟨param.clean.1, midClean 61 (by decide)⟩, param.noBackslash.1, midClean 92 (by decide)⟩
  have name : Domain.parse (trim (substr param.trimmed 0 (param.key ++ param.mid.text).length)) =
      .ok param.key := by
    have key := trim_pad (List.forall_mem_nil _) param.mid.blank param.key
    rw [List.nil_append, param.unpadded] at key
    rw [substr, List.drop_zero, trimmed, List.take_left, key]
    exact Domain.parseFrom_plain _ param.noBackslash.1
  have value : Domain.lineValue param.trimmed (param.key ++ param.mid.text).length =
      .ok (trim param.value) := by
    have rest : param.trimmed.drop ((param.key ++ param.mid.text).length + 1) =
        param.value.rdropWhile isBlank := by
      rw [trimmed, ← List.drop_drop, List.drop_left]
      rfl
    have length : param.trimmed.length = (param.key ++ param.mid.text).length +
        (param.value.rdropWhile isBlank).length + 1 := by
      rw [trimmed, List.length_append, List.length_cons, Nat.add_assoc]
    rw [Domain.lineValue, rest, trim_rdropWhile, length]
    split
    · exact Domain.parseFrom_plain _ fun h => param.noBackslash.2 (mem_of_mem_trim h)
    · have empty : param.value.rdropWhile isBlank = [] :=
        List.eq_nil_of_length_eq_zero (by omega)
      rw [← trim_rdropWhile, empty]
      rfl
  simp only [Domain.assignment, pos, name, value, bind, Except.bind]
  rfl

end ParamLine

/-- The path `/d1/.../dk/[key]` of a parameter. -/
def paramPath (names : List DomainName) (key : Bytes) : Bytes :=
  str "/" ++ names.flatMap (fun name => name.text ++ str "/") ++ str "[" ++ key ++ str "]"

/-- The domains of a path, each with the slash behind it. -/
def dirs (names : List DomainName) : Bytes := names.flatMap fun name => name.text ++ str "/"

theorem sepstr_dirs (names : List DomainName) :
    sepstr (dirs names) (str "/") false = names.map DomainName.text := by
  rw [dirs, show str "/" = [47] from rfl, sepstr_skipEmpty]
  induction names with
  | nil => rfl
  | cons name rest ih =>
    rw [List.flatMap_cons, List.append_assoc, List.singleton_append,
      List.splitOn_append_cons_self_of_not_mem name.clean.2.2,
      List.filter_cons_of_pos (by simpa using name.nonempty), ih, List.map_cons]

theorem paramPath_eq (names : List DomainName) (key : Bytes) :
    paramPath names key = 47 :: dirs names ++ 91 :: (key ++ [93]) := by
  simp only [paramPath, List.append_assoc]
  rfl

theorem not_mem_dirs {c : UInt8} (hslash : c ≠ 47) (hname : ∀ name : DomainName, c ∉ name.text)
    (names : List DomainName) : c ∉ 47 :: dirs names := by
  simp only [dirs, List.mem_cons, List.mem_flatMap, List.mem_append, not_or, not_exists]
  refine ⟨hslash, fun name h => ?_⟩
  rcases h.2 with h | h
  · exact hname name h
  · exact hslash (List.mem_singleton.mp h)

theorem findFirstOf_paramPath_open (names : List DomainName) (key : Bytes) :
    findFirstOf (paramPath names key) (str "[") 0 = some (dirs names).length.succ := by
  rw [paramPath_eq]
  exact findFirstOf_append (not_mem_dirs (by decide) (fun name => name.clean.1) names)

theorem findFirstOf_paramPath_close (names : List DomainName) {key : Bytes} (clean : 93 ∉ key) :
    findFirstOf (paramPath names key) (str "]") 0 =
      some ((dirs names).length + 1 + (key.length + 1)) := by
  have front : paramPath names key = (47 :: dirs names ++ 91 :: key) ++ 93 :: [] := by
    rw [paramPath_eq]
    simp
  have length : (47 :: dirs names ++ 91 :: key).length =
      (dirs names).length + 1 + (key.length + 1) := by
    rw [List.length_append, List.length_cons, List.length_cons]
  rw [front, ← length]
  apply findFirstOf_append
  rw [List.mem_append, not_or]
  exact ⟨not_mem_dirs (by decide) (fun name => name.clean.2.1) names, by simpa using clean⟩

theorem parseDomainName_paramPath (names : List DomainName) {key : Bytes} (clean : 93 ∉ key) :
    parseDomainName (paramPath names key) true = .ok ⟨names.map DomainName.text, key⟩ := by
  have domains : substr (paramPath names key) 1 ((dirs names).length + 1 - 1) = dirs names := by
    rw [paramPath_eq, substr, List.cons_append, List.drop_one, List.tail_cons,
      Nat.add_sub_cancel, List.take_left]
  have length : (dirs names).length + 1 + (key.length + 1) - ((dirs names).length + 1) - 1 =
      key.length := by omega
  have param : substr (paramPath names key) ((dirs names).length + 1 + 1) key.length = key := by
    rw [paramPath_eq, substr, ← List.drop_drop,
      show (dirs names).length + 1 = (47 :: dirs names).length from rfl, List.drop_left,
      List.drop_one, List.tail_cons, List.take_left]
  have head : (paramPath names key).head? = some 47 := by
    rw [paramPath_eq]
    rfl
  simp only [parseDomainName, if_true, findFirstOf_paramPath_open, head,
    findFirstOf_paramPath_close names clean, Nat.succ_eq_add_one, domains, sepstr_dirs, length,
    param]
  rw [if_pos (by omega)]

end ABDyeing
