import ABDyeing.Lib.Bytes
import ABDyeing.Lib.Split

/-! `INV_Util::sepstr<std::string>`: the loop over positions as the source has it, and the proof
that it ends for every string and cuts the string at every separator. -/

namespace ABDyeing

open Lib

/-- The `while(true)` loop of `sepstr`, from position `pos` with the fields `vt` found so far.  The
first argument bounds the number of iterations; `none` means that it was too small. -/
def sepstrLoop (sStr sSep : Bytes) (withEmpty : Bool) : Nat → Nat → List Bytes → Option (List Bytes)
  | 0, _, _ => none
  | fuel + 1, pos, vt =>
    let push (s : Bytes) : List Bytes := if withEmpty || !s.isEmpty then vt ++ [s] else vt
    match findFirstOf sStr sSep pos with
    | none => some (push (if pos + 1 ≤ sStr.length then sStr.drop pos else []))
    | some pos1 =>
      if pos1 = pos then sepstrLoop sStr sSep withEmpty fuel (pos + 1) (push [])
      else sepstrLoop sStr sSep withEmpty fuel (pos1 + 1) (push (substr sStr pos (pos1 - pos)))

def sepstr (sStr sSep : Bytes) (withEmpty : Bool) : List Bytes :=
  (sepstrLoop sStr sSep withEmpty (sStr.length + 1) 0 []).getD []

def keeps (withEmpty : Bool) (s : Bytes) : Bool := withEmpty || !s.isEmpty

theorem findFirstOf_none {sStr sSep : Bytes} {pos : Nat} (h : findFirstOf sStr sSep pos = none) :
    (sStr.drop pos).splitOnP (sSep.contains ·) = [sStr.drop pos] := by
  simp only [findFirstOf, Option.map_eq_none_iff, List.findIdx?_eq_none_iff] at h
  exact List.splitOnP_eq_singleton h

theorem findFirstOf_some {sStr sSep : Bytes} {pos pos1 : Nat}
    (h : findFirstOf sStr sSep pos = some pos1) :
    pos ≤ pos1 ∧ pos1 < sStr.length ∧ (sStr.drop pos).splitOnP (sSep.contains ·) =
      substr sStr pos (pos1 - pos) :: (sStr.drop (pos1 + 1)).splitOnP (sSep.contains ·) := by
  obtain ⟨k, hk, rfl⟩ := Option.map_eq_some_iff.mp h
  obtain ⟨bound, hsep, before⟩ := List.findIdx?_eq_some_iff_getElem.mp hk
  simp only [List.length_drop] at bound
  refine ⟨by omega, by omega, ?_⟩
  rw [splitOnP_at (by simp; omega) hsep fun j hj => by simpa using before j hj, substr,
    Nat.add_sub_cancel_left, List.drop_drop, Nat.add_assoc]

/-- From any position the loop ends within as many iterations as bytes are left, and appends the
fields from there on. -/
theorem sepstrLoop_eq (sStr sSep : Bytes) (withEmpty : Bool) (fuel pos : Nat) (vt : List Bytes)
    (hpos : pos ≤ sStr.length) (hfuel : sStr.length - pos < fuel) :
    sepstrLoop sStr sSep withEmpty fuel pos vt =
      some (vt ++ ((sStr.drop pos).splitOnP (sSep.contains ·)).filter (keeps withEmpty)) := by
  induction fuel generalizing pos vt with
  | zero => omega
  | succ fuel ih =>
    have push (s : Bytes) : (if withEmpty || !s.isEmpty then vt ++ [s] else vt) =
        vt ++ [s].filter (keeps withEmpty) := by
      rw [List.filter_singleton, keeps]
      cases withEmpty || !s.isEmpty <;> simp
    have join (s : Bytes) (rest : List Bytes) : vt ++ [s].filter (keeps withEmpty) ++
        rest.filter (keeps withEmpty) = vt ++ (s :: rest).filter (keeps withEmpty) := by
      rw [List.append_assoc, ← List.filter_append, List.singleton_append]
    simp only [sepstrLoop, push]
    split
    · rename_i hnone
      rw [findFirstOf_none hnone]
      split
      · rfl
      · rw [List.drop_eq_nil_of_le (by omega)]
    · rename_i pos1 hsome
      obtain ⟨hle, hlt, parts⟩ := findFirstOf_some hsome
      rw [parts]
      split
      · rename_i heq
        rw [ih _ _ (by omega) (by omega), join, heq, Nat.sub_self]
        rfl
      · rw [ih _ _ (by omega) (by omega), join]

theorem sepstr_eq (sStr sSep : Bytes) (withEmpty : Bool) :
    sepstr sStr sSep withEmpty =
      (sStr.splitOnP (sSep.contains ·)).filter (keeps withEmpty) := by
  simp [sepstr, sepstrLoop_eq sStr sSep withEmpty (sStr.length + 1) 0 []]

theorem sepstr_withEmpty (sStr sSep : Bytes) :
    sepstr sStr sSep true = sStr.splitOnP (sSep.contains ·) := by
  rw [sepstr_eq, List.filter_eq_self]
  simp [keeps]

theorem sepstr_append (a b : Bytes) (c : UInt8) :
    sepstr (a ++ c :: b) [c] true = sepstr a [c] true ++ sepstr b [c] true := by
  simp only [sepstr_withEmpty]
  exact List.splitOnP_append_cons a b (by simp)

/-- A text without the separator is a field of its own. -/
theorem sepstr_eq_singleton {s : Bytes} {c : UInt8} (h : c ∉ s) : sepstr s [c] true = [s] := by
  rw [sepstr_withEmpty]
  refine List.splitOnP_eq_singleton fun x hx => ?_
  simpa using ne_of_mem_of_not_mem hx h

/-- Without the empty fields. -/
theorem sepstr_filter (sStr sSep : Bytes) :
    sepstr sStr sSep false = (sepstr sStr sSep true).filter (· ≠ []) := by
  rw [sepstr_withEmpty, sepstr_eq]
  refine List.filter_congr fun s _ => ?_
  cases s <;> simp [keeps]

theorem sepstr_splitOn (sStr : Bytes) (c : UInt8) : sepstr sStr [c] true = sStr.splitOn c := by
  have isSep : (fun x => [c].contains x) = (· == c) := by
    funext x
    simp [beq_eq_decide]
  rw [sepstr_withEmpty, isSep, List.splitOn]

theorem sepstr_skipEmpty (sStr : Bytes) (c : UInt8) :
    sepstr sStr [c] false = (sStr.splitOn c).filter (· ≠ []) := by
  rw [sepstr_filter, sepstr_splitOn]

theorem sepstr_intercalate {sSep : Bytes} {c : UInt8} (hc : c ∈ sSep) {fields : List Bytes}
    (clean : ∀ f ∈ fields, ∀ x ∈ f, x ∉ sSep) (nonempty : fields ≠ []) :
    sepstr ([c].intercalate fields) sSep true = fields := by
  rw [sepstr_withEmpty]
  exact splitOnP_intercalate (by simpa using hc) (by simpa using clean) nonempty

theorem sepstrLoop_ends (sStr sSep : Bytes) (withEmpty : Bool) {fuel : Nat}
    (enough : sStr.length < fuel) :
    sepstrLoop sStr sSep withEmpty fuel 0 [] = some (sepstr sStr sSep withEmpty) := by
  rw [sepstrLoop_eq sStr sSep withEmpty fuel 0 [] (Nat.zero_le _) (by omega), sepstr_eq]
  rfl

/-- Splitting undoes joining and joining undoes splitting, and the loop ends after at most one
iteration more than the string has bytes. -/
theorem sepstr_inverse :
    (∀ (sSep : Bytes) (c : UInt8) (fields : List Bytes), c ∈ sSep → fields ≠ [] →
      (∀ f ∈ fields, ∀ x ∈ f, x ∉ sSep) →
      sepstr ([c].intercalate fields) sSep true = fields ∧
        sepstr ([c].intercalate fields) sSep false = fields.filter (· ≠ [])) ∧
    (∀ (sStr : Bytes) (c : UInt8), [c].intercalate (sepstr sStr [c] true) = sStr) ∧
    ∀ (sStr sSep : Bytes) (withEmpty : Bool) (fuel : Nat), sStr.length < fuel →
      sepstrLoop sStr sSep withEmpty fuel 0 [] = some (sepstr sStr sSep withEmpty) := by
  refine ⟨?_, ?_, fun sStr sSep withEmpty fuel => sepstrLoop_ends sStr sSep withEmpty⟩
  · intro sSep c fields hc nonempty clean
    have joined := sepstr_intercalate hc clean nonempty
    exact ⟨joined, by rw [sepstr_filter, joined]⟩
  · intro sStr c
    rw [sepstr_splitOn]
    exact List.intercalate_splitOn c

theorem sepstr_inverse_two_separators :
    let fields := [[], str "a", [], str "b", []]
    sepstr ([124].intercalate fields) (str ";|") true = fields ∧
      sepstr ([124].intercalate fields) (str ";|") false = [str "a", str "b"] := by
  intro fields
  have checked : fields.all (fun f => f.all fun x => !(str ";|").contains x) = true := by decide
  have clean : ∀ f ∈ fields, ∀ x ∈ f, x ∉ str ";|" := by simpa using checked
  exact sepstr_inverse.1 (str ";|") 124 fields (by decide) (by decide) clean

example : sepstr (str "a;;b;") (str ";") true = [str "a", [], str "b", []] := by decide

end ABDyeing
