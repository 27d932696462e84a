import ABDyeing.Config.Lines

/-! The escapes of the parameters, as `reverse_parse` writes and `parse` resolves them, and the line
of a parameter that `tostr` prints.  The search for the `=` between the key and the value looks at
one character before it, which is the end of an escape where the key ends in a backslash. -/

namespace ABDyeing

open Lib

namespace Domain

/-- What stands for `c` in the text, in which the escapes of `parse` are put back. -/
def escape (s : Bytes) (c : UInt8) : Outcome ConfigException Bytes :=
  let invalid : Abort ConfigException := .exception (.config
    (str "[INV_ConfigDomain::reverse_parse] '" ++ s ++ str "' is invalid, couldn't be parse!"))
  match c with
  | 92 => .ok (str "\\\\")
  | 13 => .ok (str "\\r")
  | 10 => .ok (str "\\n")
  | 9 => .ok (str "\\t")
  | 61 => .ok (str "\\=")
  | 60 => .error invalid
  | 62 => .error invalid
  | c => .ok [c]

/-- The loop of `INV_ConfigDomain::reverse_parse` over what is left of `s`. -/
def reverseParseFrom (s : Bytes) : Bytes → Outcome ConfigException Bytes
  | [] => .ok []
  | c :: rest => do
    let param ← escape s c
    return param ++ (← reverseParseFrom s rest)

def reverseParse (s : Bytes) : Outcome ConfigException Bytes := reverseParseFrom s s

/-- What stands behind a backslash for `c`. -/
def escapeLetter (c : UInt8) : Option UInt8 :=
  match c with
  | 92 => some 92
  | 13 => some 114
  | 10 => some 110
  | 9 => some 116
  | 61 => some 61
  | _ => none

def escapeChar (l : UInt8) : Option UInt8 :=
  match l with
  | 92 => some 92
  | 114 => some 13
  | 110 => some 10
  | 116 => some 9
  | 61 => some 61
  | _ => none

/-- The code of `reverse_parse` and `parse`. -/
def escapeCode : EscapeCode UInt8 where
  esc := 92
  letter := escapeLetter
  char := escapeChar
  char_letter c l h := by
    unfold escapeLetter at h
    split at h <;> cases h <;> rfl
  letter_esc := rfl

theorem escape_eq (s : Bytes) {c : UInt8} (clean : c ≠ 60 ∧ c ≠ 62) :
    escape s c = .ok (escapeCode.encodeChar c) := by
  unfold escape EscapeCode.encodeChar
  split
  case h_6 => exact absurd rfl clean.1
  case h_7 => exact absurd rfl clean.2
  case h_8 =>
    have plain : escapeCode.letter c = none := by
      show escapeLetter c = none
      unfold escapeLetter
      split <;> first | rfl | contradiction
    rw [plain]
  all_goals rfl

/-- A text without angle brackets is encoded. -/
theorem reverseParse_eq {s : Bytes} (clean : 60 ∉ s ∧ 62 ∉ s) :
    reverseParse s = .ok (escapeCode.encode s) := by
  have loop (t : Bytes) (ht : 60 ∉ t ∧ 62 ∉ t) :
      reverseParseFrom s t = .ok (escapeCode.encode t) := by
    induction t with
    | nil => rfl
    | cons c rest ih =>
      simp only [List.mem_cons, not_or] at ht
      rw [reverseParseFrom, escape_eq s ⟨Ne.symm ht.1.1, Ne.symm ht.2.1⟩, ih ⟨ht.1.2, ht.2.2⟩]
      rfl
  exact loop s clean

theorem unescape_eq_ok {s : Bytes} {l c : UInt8} :
    unescape s l = .ok c ↔ escapeCode.char l = some c := by
  show unescape s l = .ok c ↔ escapeChar l = some c
  unfold unescape
  split
  case h_6 =>
    have plain : escapeChar l = none := by
      unfold escapeChar
      split <;> first | rfl | contradiction
    simp [plain]
  all_goals simp [escapeChar]

/-- `parse` answers with what the text decodes to. -/
theorem parseFrom_eq_ok {s t decoded : Bytes} :
    parseFrom s t = .ok decoded ↔ escapeCode.decode t = some decoded := by
  fun_induction parseFrom s t generalizing decoded with
  | case1 => simp [EscapeCode.decode]
  | case2 => simp [EscapeCode.decode, escapeCode]
  | case3 l rest ih =>
    have behind : 92 = escapeCode.esc := rfl
    rw [EscapeCode.decode, if_pos behind]
    simp only [bind_eq_ok, unescape_eq_ok, ih, Option.bind_eq_some_iff, Option.map_eq_some_iff]
    simp [pure, Except.pure]
  | case4 c rest single double ih =>
    have plain : c ≠ escapeCode.esc := by
      rintro rfl
      cases rest with
      | nil => exact single rfl rfl
      | cons l rest => exact double l rest rfl rfl
    rw [escapeCode.decode_cons_of_ne plain]
    simp only [bind_eq_ok, ih, Option.map_eq_some_iff]
    simp [pure, Except.pure]

end Domain

/-- A key or a value that has no angle brackets, for which `reverse_parse` throws, and no spaces at
its ends.  The other blanks are escaped, and may stand anywhere. -/
structure ParamText where
  text : Bytes
  nonempty : text ≠ []
  clean : 60 ∉ text ∧ 62 ∉ text
  unpadded : text.head? ≠ some 32 ∧ text.getLast? ≠ some 32

namespace ParamText

open Domain

def encoded (t : ParamText) : Bytes := escapeCode.encode t.text

theorem reverseParse (t : ParamText) : Domain.reverseParse t.text = .ok t.encoded :=
  reverseParse_eq t.clean

theorem encoded_ne_nil (t : ParamText) : t.encoded ≠ [] := by
  obtain ⟨c, rest, htext⟩ := List.exists_cons_of_ne_nil t.nonempty
  intro h
  have head := escapeCode.head?_encode t.text
  rw [show escapeCode.encode t.text = [] from h, htext] at head
  cases head

/-- A blank that is not written as an escape is a space. -/
theorem isBlank_of_plain {c : UInt8} (plain : escapeCode.letter c = none) (space : c ≠ 32) :
    isBlank c = false := by
  by_contra blank
  rw [Bool.not_eq_false] at blank
  rcases isBlank_cases blank with rfl | rfl | rfl | rfl
  · exact space rfl
  all_goals cases plain

theorem isBlank_of_letter {c l : UInt8} (h : escapeCode.letter c = some l) :
    isBlank l = false := by
  change escapeLetter c = some l at h
  unfold escapeLetter at h
  split at h <;> cases h <;> rfl

theorem trim_encoded (t : ParamText) : trim t.encoded = t.encoded := by
  apply trim_eq_of_ends
  · intro d hd
    rw [encoded, EscapeCode.head?_encode] at hd
    obtain ⟨c, hc, rfl⟩ := Option.map_eq_some_iff.mp hd
    cases h : escapeCode.letter c with
    | some l => rfl
    | none => exact isBlank_of_plain h fun space => t.unpadded.1 (space ▸ hc)
  · intro d hd
    rw [encoded, EscapeCode.getLast?_encode] at hd
    obtain ⟨c, hc, rfl⟩ := Option.map_eq_some_iff.mp hd
    cases h : escapeCode.letter c with
    | some l => exact isBlank_of_letter h
    | none => exact isBlank_of_plain h fun space => t.unpadded.2 (space ▸ hc)

theorem parse_encoded (t : ParamText) : parse t.encoded = .ok t.text :=
  parseFrom_eq_ok.mpr (escapeCode.decode_encode t.text)

theorem guarded (t : ParamText) (last : Option UInt8) : Guarded 92 61 last t.encoded :=
  escapeCode.guarded_encode (by decide) (by decide) last t.text

theorem getLast?_encoded (t : ParamText) :
    t.encoded.getLast? = some 92 ↔ t.text.getLast? = some 92 :=
  EscapeCode.getLast?_encode_eq_esc

end ParamText

namespace Domain

/-- The line that `tostr` prints of a parameter, without the tabs before it. -/
def printLine (name value : Bytes) : Outcome ConfigException Bytes := do
  let key ← reverseParse name
  return key ++ str "=" ++ (← reverseParse value)

/-- The line that is printed of a parameter is read into the domain as this parameter. -/
def StoresPrinted (domain : Domain) (name value : Bytes) : Prop :=
  ∃ line after, printLine name value = .ok line ∧ domain.setParamLine line = .ok after ∧
    after.params = (domain.setParamValue name value).params

section Printed

variable (key value : ParamText)

def printedText : Bytes := key.encoded ++ 61 :: value.encoded

theorem printLine_eq : printLine key.text value.text = .ok (printedText key value) := by
  rw [printLine, key.reverseParse, value.reverseParse]
  simp only [bind, Except.bind, pure, Except.pure, List.append_assoc]
  rfl

/-- The search finds the `=` where the key does not end in a backslash. -/
theorem assignment_printed (ends : key.text.getLast? ≠ some 92) :
    assignment (printedText key value) = .ok (key.text, value.text) := by
  have pos : assignPos none 0 (printedText key value) = some key.encoded.length := by
    rw [printedText, assignPos_guarded (key.guarded none), Option.or_none, Nat.zero_add]
    exact if_pos ⟨rfl, mt key.getLast?_encoded.mp ends⟩
  have name : parse (trim (substr (printedText key value) 0 key.encoded.length)) =
      .ok key.text := by
    rw [printedText, substr, List.drop_zero, List.take_left, key.trim_encoded, key.parse_encoded]
  have rest : (printedText key value).drop (key.encoded.length + 1) = value.encoded := by
    rw [printedText, ← List.drop_drop, List.drop_left]
    rfl
  have bound : key.encoded.length < (printedText key value).length - 1 := by
    have := List.length_pos_of_ne_nil value.encoded_ne_nil
    rw [printedText, List.length_append, List.length_cons]
    omega
  simp only [assignment, pos, name, lineValue, if_pos bound, rest, value.trim_encoded,
    value.parse_encoded]
  rfl

/-- The search takes the end of the key for the beginning of an escape. -/
theorem assignment_printed_of_backslash (ends : key.text.getLast? = some 92) :
    assignment (printedText key value) = .ok (printedText key value, []) := by
  have guarded : Guarded 92 61 none (printedText key value) := by
    rw [printedText, guarded_append, key.getLast?_encoded.mpr ends]
    exact ⟨key.guarded none, fun _ => rfl, value.guarded (some 61)⟩
  rw [assignment, assignPos_eq_none guarded]

end Printed

/-- A parameter is stored again as it was printed exactly where its key does not end in a
backslash. -/
theorem storesPrinted_iff (domain : Domain) (key value : ParamText) :
    domain.StoresPrinted key.text value.text ↔ key.text.getLast? ≠ some 92 := by
  have nonempty : printedText key value ≠ [] := by simp [printedText]
  constructor
  · intro ⟨line, after, hline, hset, hparams⟩ ends
    obtain rfl := Except.ok.inj ((printLine_eq key value).symm.trans hline)
    rw [setParamLine_eq nonempty, assignment_printed_of_backslash key value ends] at hset
    obtain rfl := Except.ok.inj hset
    have last := congrArg List.getLast? hparams
    simp only [setParamValue, List.getLast?_concat, Option.some.injEq, Prod.mk.injEq] at last
    exact value.nonempty last.2.symm
  · intro ends
    have hset := setParamLine_eq nonempty domain
    rw [assignment_printed key value ends] at hset
    exact ⟨_, _, printLine_eq key value, hset, rfl⟩

/-- The key is a letter and a backslash, of which the second half of the escape hides the `=`. -/
theorem not_storesPrinted :
    ∃ key value : ParamText, key.text = str "a\\" ∧ value.text = str "b" ∧
      printLine key.text value.text = .ok (str "a\\\\=b") ∧
      ¬(new []).StoresPrinted key.text value.text := by
  let key : ParamText := ⟨str "a\\", by decide, by decide, by decide⟩
  let value : ParamText := ⟨str "b", by decide, by decide, by decide⟩
  have printed : printLine key.text value.text = .ok (str "a\\\\=b") := rfl
  refine ⟨key, value, rfl, rfl, printed, ?_⟩
  intro ⟨line, after, hline, hset, hparams⟩
  obtain rfl := Except.ok.inj (printed.symm.trans hline)
  obtain rfl := Except.ok.inj hset
  exact absurd hparams (by decide)

end Domain

end ABDyeing
