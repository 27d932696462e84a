import Mathlib.Algebra.Group.Int.Defs
import Mathlib.Algebra.Group.Nat.Defs
import Mathlib.Data.Int.Order.Basic
import Mathlib.Data.List.TakeWhile

/-! Byte strings, which are what a C++ `std::string` holds, and the decimal numerals that the C
library reads and writes in them.  `strtol` saturates at 64 bits, `atoi` keeps its low 32 bits, and
`decimal` writes what both read back. -/

namespace Lib

abbrev Bytes := List UInt8

def str (s : String) : Bytes := s.toList.map Char.toUInt8

/-- `s.find_first_of(set, pos)`, with `none` for `npos`. -/
def findFirstOf (s set : Bytes) (pos : Nat) : Option Nat :=
  ((s.drop pos).findIdx? (set.contains ·)).map (pos + ·)

def substr (s : Bytes) (pos n : Nat) : Bytes := (s.drop pos).take n

/-- `s <= t` of two strings. -/
def strLe : Bytes → Bytes → Bool
  | [], _ => true
  | _ :: _, [] => false
  | c :: s, d :: t => c < d || c == d && strLe s t

def isSpace (c : UInt8) : Bool := c == 32 || (9 ≤ c && c ≤ 13)

def isDigit (c : UInt8) : Bool := 48 ≤ c && c ≤ 57

def digitsValue (s : Bytes) : Nat := s.foldl (fun n c => 10 * n + (c.toNat - 48)) 0

/-- `strtol(s, NULL, 10)`: blanks, at most one sign, and the digits that follow, saturated at the
bounds of `long`. -/
def strtol (s : Bytes) : Int :=
  match s.dropWhile isSpace with
  | 45 :: rest => max (-2 ^ 63) (-(digitsValue (rest.takeWhile isDigit) : Int))
  | 43 :: rest => min (2 ^ 63 - 1) (digitsValue (rest.takeWhile isDigit) : Int)
  | rest => min (2 ^ 63 - 1) (digitsValue (rest.takeWhile isDigit) : Int)

/-- `atoi`: the low 32 bits of `strtol`. -/
def atoi (s : Bytes) : Int32 := Int32.ofInt (strtol s)

def atol (s : Bytes) : Int64 := Int64.ofInt (strtol s)

def decimal (n : Nat) : Bytes := (Nat.toDigits 10 n).map Char.toUInt8

/-- `std::to_string` of an integer, which is also what a stream prints for it. -/
def toDecimal : Int → Bytes
  | .ofNat n => decimal n
  | .negSucc n => 45 :: decimal (n + 1)

/-- A decimal integer as it is written: blanks, a sign or none, and digits. -/
structure WrittenInt where
  blanks : Bytes
  sign : Bytes
  digits : Bytes
  blank : ∀ c ∈ blanks, isSpace c = true
  signed : sign = [] ∨ sign = str "+" ∨ sign = str "-"
  nonempty : digits ≠ []
  digit : ∀ c ∈ digits, isDigit c = true

def WrittenInt.text (w : WrittenInt) : Bytes := w.blanks ++ (w.sign ++ w.digits)

def WrittenInt.value (w : WrittenInt) : Int :=
  if w.sign = str "-" then -(digitsValue w.digits : Int) else digitsValue w.digits

theorem toUInt8_toNat {c : Char} (h : c.isDigit = true) : c.toUInt8.toNat = c.toNat := by
  have hc : c.toNat ≤ 57 := by
    simp only [Char.isDigit, Bool.and_eq_true, decide_eq_true_eq] at h
    exact UInt32.le_iff_toNat_le.mp h.2
  simp only [Char.toUInt8, UInt32.toNat_toUInt8]
  exact Nat.mod_eq_of_lt (by change c.toNat < 2 ^ 8; omega)

theorem isDigit_of_mem_decimal {n : Nat} {c : UInt8} (h : c ∈ decimal n) : isDigit c = true := by
  obtain ⟨d, hd, rfl⟩ := List.mem_map.mp h
  have hdigit := Nat.isDigit_of_mem_toDigits (by decide) (by decide) hd
  have hnat := toUInt8_toNat hdigit
  simp only [Char.isDigit, Bool.and_eq_true, decide_eq_true_eq, UInt32.le_iff_toNat_le] at hdigit
  simp only [isDigit, Bool.and_eq_true, decide_eq_true_eq, UInt8.le_iff_toNat_le, hnat]
  exact hdigit

@[simp] theorem decimal_ne_nil (n : Nat) : decimal n ≠ [] := by
  simp [decimal]

theorem not_mem_decimal {n : Nat} {c : UInt8} (h : isDigit c = false) : c ∉ decimal n :=
  fun hc => by simp [isDigit_of_mem_decimal hc] at h

theorem foldl_digits (cs : List Char) (hcs : ∀ c ∈ cs, c.isDigit = true) (n : Nat) :
    (cs.map Char.toUInt8).foldl (fun n c => 10 * n + (c.toNat - 48)) n =
      Nat.ofDigitChars 10 cs n := by
  induction cs generalizing n with
  | nil => simp
  | cons c cs ih =>
    rw [List.map_cons, List.foldl_cons, ih fun d hd => hcs d (by simp [hd]), Nat.ofDigitChars_cons,
      toUInt8_toNat (hcs c (by simp))]
    rfl

theorem digitsValue_decimal (n : Nat) : digitsValue (decimal n) = n := by
  rw [digitsValue, decimal, foldl_digits, Nat.ofDigitChars_toDigits (by decide) (by decide)]
  exact fun c hc => Nat.isDigit_of_mem_toDigits (by decide) (by decide) hc

theorem decimal_injective {m n : Nat} (same : decimal m = decimal n) : m = n := by
  rw [← digitsValue_decimal m, same, digitsValue_decimal]

theorem isSpace_of_isDigit {c : UInt8} (h : isDigit c = true) : isSpace c = false := by
  have bounds : 48 ≤ c.toNat ∧ c.toNat ≤ 57 := by
    simpa [isDigit, UInt8.le_iff_toNat_le] using h
  simp only [isSpace, UInt8.le_iff_toNat_le, beq_eq_false_iff_ne, Bool.or_eq_false_iff,
    Bool.and_eq_false_iff, decide_eq_false_iff_not, ne_eq, ← UInt8.toNat_inj]
  exact ⟨by simp; omega, by simp; omega⟩

/-- `strtol` reads the integer that a text begins with, whatever stands behind its digits. -/
theorem strtol_written (w : WrittenInt) {rest : Bytes}
    (stops : ∀ c ∈ rest.head?, isDigit c = false) :
    strtol (w.text ++ rest) = max (-2 ^ 63) (min (2 ^ 63 - 1) w.value) := by
  obtain ⟨blanks, sign, digits, blank, signed, nonempty, digit⟩ := w
  have taken : (digits ++ rest).takeWhile isDigit = digits := by
    rw [List.takeWhile_append_of_pos digit]
    cases rest with
    | nil => simp
    | cons c rest => simp [stops c rfl]
  have skipped (c : UInt8) (tail : Bytes) (other : isSpace c = false) :
      (blanks ++ c :: tail).dropWhile isSpace = c :: tail := by
    rw [List.dropWhile_append_of_pos blank, List.dropWhile_cons_of_neg (by simp [other])]
  obtain ⟨c, tail, rfl⟩ := List.exists_cons_of_ne_nil nonempty
  have first : isDigit c = true := digit c (by simp)
  simp only [WrittenInt.text, WrittenInt.value, List.append_assoc]
  rcases signed with rfl | rfl | rfl
  · have plain : c ≠ 45 ∧ c ≠ 43 := by
      constructor <;> rintro rfl <;> exact absurd first (by decide)
    have value : strtol (blanks ++ ([] ++ (c :: tail ++ rest))) =
        min (2 ^ 63 - 1) (digitsValue ((c :: tail ++ rest).takeWhile isDigit) : Int) := by
      rw [strtol, List.nil_append, List.cons_append, skipped c _ (isSpace_of_isDigit first)]
      split <;> simp_all
    rw [value, taken, if_neg (by decide)]
    omega
  · have value : strtol (blanks ++ (str "+" ++ (c :: tail ++ rest))) =
        min (2 ^ 63 - 1) (digitsValue ((c :: tail ++ rest).takeWhile isDigit) : Int) := by
      rw [strtol, show str "+" = [43] from rfl, List.singleton_append, skipped 43 _ (by decide)]
      rfl
    rw [value, taken, if_neg (by decide)]
    omega
  · have value : strtol (blanks ++ (str "-" ++ (c :: tail ++ rest))) =
        max (-2 ^ 63) (-(digitsValue ((c :: tail ++ rest).takeWhile isDigit) : Int)) := by
      rw [strtol, show str "-" = [45] from rfl, List.singleton_append, skipped 45 _ (by decide)]
      rfl
    rw [value, taken, if_pos rfl]
    omega

theorem strtol_digits {s : Bytes} (nonempty : s ≠ []) (digits : ∀ c ∈ s, isDigit c = true)
    (h : digitsValue s < 2 ^ 63) : strtol s = digitsValue s := by
  let w : WrittenInt := ⟨[], [], s, by simp, .inl rfl, nonempty, digits⟩
  have value : w.value = digitsValue s := if_neg (show ¬([] : Bytes) = str "-" by decide)
  have ends : ∀ c ∈ ([] : Bytes).head?, isDigit c = false := by simp
  have read : strtol (s ++ []) = max (-2 ^ 63) (min (2 ^ 63 - 1) (digitsValue s : Int)) :=
    value ▸ strtol_written w ends
  rw [List.append_nil] at read
  omega

theorem strtol_decimal {n : Nat} (h : n < 2 ^ 63) : strtol (decimal n) = n := by
  rw [strtol_digits (decimal_ne_nil n) (fun _ => isDigit_of_mem_decimal)
    (by rwa [digitsValue_decimal]), digitsValue_decimal]

theorem atol_digits {s : Bytes} (nonempty : s ≠ []) (digits : ∀ c ∈ s, isDigit c = true)
    (h : digitsValue s < 2 ^ 63) : (atol s).toUInt64.toNat = digitsValue s := by
  rw [atol, strtol_digits nonempty digits h, Int64.ofInt_eq_ofNat]
  change (UInt64.ofNat (digitsValue s)).toNat = digitsValue s
  exact UInt64.toNat_ofNat_of_lt' (h.trans (by decide))

theorem atoi_decimal {n : Nat} (h : n < 2 ^ 63) : atoi (decimal n) = Int32.ofNat n := by
  rw [atoi, strtol_decimal h, Int32.ofInt_eq_ofNat]

@[simp] theorem toDecimal_natCast (n : Nat) : toDecimal (n : Int) = decimal n := rfl

theorem toDecimal_ne_nil (x : Int) : toDecimal x ≠ [] := by
  cases x with
  | ofNat n => exact decimal_ne_nil n
  | negSucc n => simp [toDecimal]

theorem toDecimal_injective {x y : Int} (same : toDecimal x = toDecimal y) : x = y := by
  have sign (m n : Nat) : decimal m ≠ 45 :: decimal n := fun h =>
    not_mem_decimal (n := m) (c := 45) (by decide) (h ▸ List.mem_cons_self)
  cases x with
  | ofNat m =>
    cases y with
    | ofNat n => exact congrArg Int.ofNat (decimal_injective same)
    | negSucc n => exact absurd same (sign m (n + 1))
  | negSucc m =>
    cases y with
    | ofNat n => exact absurd same.symm (sign n (m + 1))
    | negSucc n =>
      have digits := decimal_injective (List.cons.inj same).2
      exact congrArg Int.negSucc (Nat.succ.inj digits)

theorem takeWhile_toDecimal (x : Int) : (toDecimal x).takeWhile (· ≠ 10) = toDecimal x := by
  rw [List.takeWhile_eq_self_iff]
  have line (n : Nat) : ∀ c ∈ decimal n, c ≠ 10 := fun c hc newline =>
    not_mem_decimal (by decide) (newline ▸ hc)
  cases x with
  | ofNat n => simpa [toDecimal] using line n
  | negSucc n => simpa [toDecimal] using line (n + 1)

theorem atoi_toDecimal {x : Int32} (h : 0 ≤ x) : atoi (toDecimal x.toInt) = x := by
  have hx : x.toInt = (x.toNatClampNeg : Int) :=
    (Int.toNat_of_nonneg (Int32.le_iff_toInt_le.mp h)).symm
  have hlt := x.toInt_lt
  rw [hx, toDecimal_natCast, atoi_decimal (by omega), Int32.ofNat_toNatClampNeg x h]

theorem atoi_decimal_toUInt32 {n : Nat} (h : n < 2 ^ 31) :
    (atoi (decimal n)).toUInt32 = UInt32.ofNat n := by
  rw [atoi_decimal (by omega)]
  rfl

end Lib
