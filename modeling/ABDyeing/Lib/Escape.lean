import Mathlib.Data.List.Basic

/-! Escape codes, in which some characters of a text are written as an escape character and a
letter.  An encoded text is decoded to the text again, and it holds a character that has a code of
its own directly behind the escape character only. -/

namespace Lib

/-- `letter c` stands behind the escape character for `c`, and `char l` is what the letter `l`
stands for there.  The escape character stands for itself. -/
structure EscapeCode (α : Type) where
  esc : α
  letter : α → Option α
  char : α → Option α
  char_letter : ∀ c l, letter c = some l → char l = some c
  letter_esc : letter esc = some esc

/-- Every `sep` of the list stands directly behind an `esc`; `last` is the element before the
list. -/
def Guarded {α : Type} (esc sep : α) : Option α → List α → Prop
  | _, [] => True
  | last, c :: rest => (c = sep → last = some esc) ∧ Guarded esc sep (some c) rest

theorem guarded_of_not_mem {α : Type} {esc sep : α} {last : Option α} {s : List α}
    (other : sep ∉ s) : Guarded esc sep last s := by
  induction s generalizing last with
  | nil => trivial
  | cons c s ih =>
    obtain ⟨hc, hs⟩ := not_or.mp (mt List.mem_cons.mpr other)
    exact ⟨fun same => absurd same.symm hc, ih hs⟩

theorem guarded_append {α : Type} {esc sep : α} {last : Option α} {s t : List α} :
    Guarded esc sep last (s ++ t) ↔
      Guarded esc sep last s ∧ Guarded esc sep (s.getLast?.or last) t := by
  induction s generalizing last with
  | nil => simp [Guarded]
  | cons c s ih =>
    rw [List.cons_append, Guarded, Guarded, ih, and_assoc, List.getLast?_cons]
    cases s.getLast? <;> rfl

namespace EscapeCode

variable {α : Type} (code : EscapeCode α)

def encodeChar (c : α) : List α :=
  match code.letter c with
  | some l => [code.esc, l]
  | none => [c]

def encode (s : List α) : List α := s.flatMap code.encodeChar

variable {code} {c l : α} {s : List α}

theorem encode_cons_of_coded (h : code.letter c = some l) (s : List α) :
    code.encode (c :: s) = code.esc :: l :: code.encode s := by
  rw [encode, List.flatMap_cons, encodeChar, h]
  rfl

theorem encode_cons_of_plain (h : code.letter c = none) (s : List α) :
    code.encode (c :: s) = c :: code.encode s := by
  rw [encode, List.flatMap_cons, encodeChar, h]
  rfl

theorem encode_eq_self (plain : ∀ c ∈ s, code.letter c = none) : code.encode s = s := by
  induction s with
  | nil => rfl
  | cons c s ih =>
    obtain ⟨hc, hs⟩ := List.forall_mem_cons.mp plain
    rw [encode_cons_of_plain hc, ih hs]

theorem ne_esc_of_plain (h : code.letter c = none) : c ≠ code.esc := by
  rintro rfl
  rw [code.letter_esc] at h
  cases h

/-- The escape character is the letter of no other character. -/
theorem letter_eq_esc : code.letter c = some code.esc ↔ c = code.esc := by
  constructor
  · intro h
    have same := (code.char_letter c _ h).symm.trans (code.char_letter _ _ code.letter_esc)
    exact Option.some.inj same
  · rintro rfl
    exact code.letter_esc

theorem head?_encode (s : List α) :
    (code.encode s).head? = s.head?.map fun c => (code.letter c).elim c fun _ => code.esc := by
  cases s with
  | nil => rfl
  | cons c s =>
    cases h : code.letter c with
    | some l => simp [encode_cons_of_coded h, h]
    | none => simp [encode_cons_of_plain h, h]

theorem getLast?_encode (s : List α) :
    (code.encode s).getLast? = s.getLast?.map fun c => (code.letter c).getD c := by
  rcases List.eq_nil_or_concat s with rfl | ⟨init, c, rfl⟩
  · rfl
  · rw [List.concat_eq_append, encode, List.flatMap_append, List.flatMap_singleton, encodeChar]
    cases h : code.letter c with
    | some l => simp [h]
    | none => simp [h]

/-- An encoded text ends in the escape character where the text does. -/
theorem getLast?_encode_eq_esc :
    (code.encode s).getLast? = some code.esc ↔ s.getLast? = some code.esc := by
  rw [getLast?_encode]
  cases s.getLast? with
  | none => simp
  | some c =>
    rw [Option.map_some, Option.some.injEq, Option.some.injEq]
    cases h : code.letter c with
    | some l => rw [Option.getD_some, ← Option.some.injEq, ← h, letter_eq_esc]
    | none => rfl

/-- A character with a code stands behind the escape character wherever it occurs. -/
theorem guarded_encode {sep : α} (coded : code.letter sep ≠ none) (other : sep ≠ code.esc)
    (last : Option α) (s : List α) : Guarded code.esc sep last (code.encode s) := by
  induction s generalizing last with
  | nil => trivial
  | cons c s ih =>
    cases h : code.letter c with
    | some l =>
      rw [encode_cons_of_coded h]
      exact ⟨fun same => absurd same.symm other, fun _ => rfl, ih (some l)⟩
    | none =>
      rw [encode_cons_of_plain h]
      exact ⟨fun same => absurd (same ▸ h) coded, ih (some c)⟩

section Decode

variable [DecidableEq α] (code)

def decode : List α → Option (List α)
  | [] => some []
  | [c] => if c = code.esc then none else some [c]
  | c :: l :: rest =>
    if c = code.esc then (code.char l).bind fun d => (decode rest).map (d :: ·)
    else (decode (l :: rest)).map (c :: ·)

theorem decode_cons_of_ne (h : c ≠ code.esc) (rest : List α) :
    code.decode (c :: rest) = (code.decode rest).map (c :: ·) := by
  cases rest with
  | nil => simp [decode, h]
  | cons l rest => rw [decode, if_neg h]

theorem decode_encode (s : List α) : code.decode (code.encode s) = some s := by
  induction s with
  | nil => rfl
  | cons c s ih =>
    cases h : code.letter c with
    | some l =>
      rw [encode_cons_of_coded h, decode, if_pos rfl, code.char_letter c l h, ih]
      rfl
    | none =>
      rw [encode_cons_of_plain h, decode_cons_of_ne code (ne_esc_of_plain h), ih]
      rfl

end Decode

end EscapeCode

end Lib
