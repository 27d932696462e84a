import ABDyeing.Fresh.CurrentFresh
import ABDyeing.Lib.Run

/-! The index by time as the way out of the queue: only a user with an entry in it is ever erased.
The index is keyed by the time alone, so a `set` at a time that is already there takes the entry of
another user away. -/

namespace ABDyeing

open Lib

namespace CurrentFresh

def Indexed (fresh : CurrentFresh) : Prop :=
  ∀ uid ∈ fresh.kq, ∃ t, (t, uid) ∈ fresh.timeKmsg.entries

/-- A cutoff above every time in the index empties the queue. -/
def Forgets (fresh : CurrentFresh) : Prop :=
  ∀ cnow, (∀ entry ∈ fresh.timeKmsg.entries, entry.1 < cnow) → (fresh.clearBefore cnow).kq = ∅

/-- The call overwrites no entry of another user in the queue that is his only one. -/
def KeepsLastEntries (fresh : CurrentFresh) : FreshCall → Prop
  | .set uid t1 _ => ∀ v ∈ fresh.kq, v ≠ uid → (t1, v) ∈ fresh.timeKmsg.entries →
      ∃ t, t ≠ t1 ∧ (t, v) ∈ fresh.timeKmsg.entries
  | .clear _ => True

theorem forgets_of_indexed {fresh : CurrentFresh} (indexed : fresh.Indexed) : fresh.Forgets := by
  intro cnow above
  refine Finmap.ext_lookup fun uid => ?_
  rw [Finmap.lookup_empty, Finmap.lookup_eq_none]
  intro hmem
  obtain ⟨hkq, hkept⟩ := mem_clearBefore_kq.mp hmem
  obtain ⟨t, hentry⟩ := indexed uid hkq
  exact absurd (hkept t hentry) (not_le.mpr (above _ hentry))

theorem indexed_clearBefore {fresh : CurrentFresh} (indexed : fresh.Indexed) (cnow : UInt64) :
    (fresh.clearBefore cnow).Indexed := by
  intro uid hmem
  obtain ⟨hkq, hkept⟩ := mem_clearBefore_kq.mp hmem
  obtain ⟨t, hentry⟩ := indexed uid hkq
  exact ⟨t, mem_clearBefore_index.mpr ⟨hentry, hkept t hentry⟩⟩

theorem indexed_set_iff {fresh : CurrentFresh} (indexed : fresh.Indexed) (uid : Bytes)
    (t1 t2 : UInt64) :
    (fresh.set t1 t2 uid).Indexed ↔ fresh.KeepsLastEntries (.set uid t1 t2) := by
  constructor
  · intro h v hkq hne _
    obtain ⟨t, hentry⟩ := h v (mem_set_kq.mpr (.inr hkq))
    rcases mem_set_index.mp hentry with heq | ⟨hold, ht⟩
    · exact absurd (congrArg Prod.snd heq) hne
    · exact ⟨t, ht, hold⟩
  · intro keeps v hmem
    rcases mem_set_kq.mp hmem with rfl | hkq
    · exact ⟨t1, mem_set_index.mpr (.inl rfl)⟩
    · by_cases hv : v = uid
      · exact ⟨t1, mem_set_index.mpr (.inl (by rw [hv]))⟩
      · obtain ⟨t, hentry⟩ := indexed v hkq
        by_cases ht : t = t1
        · obtain ⟨t', hne, hother⟩ := keeps v hkq hv (ht ▸ hentry)
          exact ⟨t', mem_set_index.mpr (.inr ⟨hother, hne⟩)⟩
        · exact ⟨t, mem_set_index.mpr (.inr ⟨hentry, ht⟩)⟩

theorem indexed_call_iff {window : UInt64} {fresh : CurrentFresh} (indexed : fresh.Indexed)
    (call : FreshCall) : (fresh.call window call).Indexed ↔ fresh.KeepsLastEntries call := by
  cases call with
  | set uid t1 t2 => exact indexed_set_iff indexed uid t1 t2
  | clear now => exact iff_of_true (indexed_clearBefore indexed _) trivial

theorem empty_indexed : empty.Indexed := fun _ hmem => absurd hmem Finmap.notMem_empty

/-- Through a whole run the queue stays indexed, and a late enough `clear` would empty it, if and
only if no call overwrites the only entry of another user in the queue. -/
theorem always_indexed_iff (window : UInt64) (calls : List FreshCall) :
    Always (call window) (fun fresh => fresh.Indexed ∧ fresh.Forgets) empty calls ↔
      Along (call window) KeepsLastEntries empty calls := by
  have same : (fun fresh : CurrentFresh => fresh.Indexed ∧ fresh.Forgets) = Indexed := by
    funext fresh
    exact propext (and_iff_left_of_imp forgets_of_indexed)
  have keep (fresh : CurrentFresh) (call : FreshCall) (h : fresh.Indexed) :
      (fresh.call window call).Indexed ↔ fresh.KeepsLastEntries call := indexed_call_iff h call
  rw [same, always_iff_of_exact keep empty_indexed]

/-- Two users set at one time: the first one keeps his place in the queue and loses his entry. -/
theorem indexed_fails_example :
    ([FreshCall.set (str "u") 5 5, .set (str "v") 5 5].flatMap FreshCall.readings).Pairwise
      (· ≤ ·) ∧
    ¬Always (call 10) (fun fresh => fresh.Indexed ∧ fresh.Forgets) empty
      [.set (str "u") 5 5, .set (str "v") 5 5] := by
  refine ⟨by decide, fun h => ?_⟩
  obtain ⟨t, hentry⟩ := h.last.1 (str "u") (by decide)
  have hindex : (t, str "u") ∈ [((5 : UInt64), str "v")] := hentry
  simp at hindex
  exact absurd hindex.2 (by decide)

end CurrentFresh

end ABDyeing
