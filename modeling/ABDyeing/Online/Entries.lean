import ABDyeing.Online.Load

/-! The entries of a policy text one by one: a text is parsed as its entries are, in their order,
and an entry without the right number of fields is as good as none. -/

namespace ABDyeing

open Lib

/-- An entry that is not split into a product and a policy, or whose policy has too few fields. -/
def Malformed (entry : Bytes) : Prop :=
  (sepstr entry (str "|") true).length ≠ 2 ∨
    ∃ productId policy, sepstr entry (str "|") true = [productId, policy] ∧
      (sepstr policy (str ":") true).length < 3

theorem parseEntry_eq_none {entry : Bytes} : parseEntry entry = none ↔ Malformed entry := by
  unfold parseEntry Malformed
  split
  · rename_i productId policy hentry
    rw [hentry]
    split
    · rename_i idPrefix seed field fields hpolicy
      simp only [reduceCtorEq, List.length_cons, List.length_nil, false_iff, not_or, not_exists,
        not_and, not_lt, List.cons.injEq, and_true]
      refine ⟨not_not_intro rfl, fun _ _ ⟨_, same⟩ => ?_⟩
      rw [← same, hpolicy]
      simp
    · rename_i hfew
      refine iff_of_true rfl (.inr ⟨productId, policy, rfl, ?_⟩)
      match hfields : sepstr policy (str ":") true with
      | [] | [_] | [_, _] => simp
      | idPrefix :: seed :: field :: fields => exact absurd hfields (hfew _ _ _ _)
  · rename_i hparts
    refine iff_of_true rfl (.inl fun two => ?_)
    obtain ⟨productId, policy, hentry⟩ := List.length_eq_two.mp two
    exact hparts _ _ hentry

/-- What stands before the `|` of an entry. -/
def entryProduct (entry : Bytes) : Bytes := (sepstr entry (str "|") true).getD 0 []

/-- The fields of what stands behind it. -/
def writtenFields (entry : Bytes) : List Bytes :=
  sepstr ((sepstr entry (str "|") true).getD 1 []) (str ":") true

/-- The segments among these fields, which are those of three parts. -/
def writtenSegments (fields : List Bytes) : List ConfIdInfo :=
  ((fields.map fun field => sepstr field (str ",") true).filter fun parts => parts.length = 3).map
    fun parts => ⟨parts.getD 0 [], (atoi (parts.getD 1 [])).toUInt32,
      (atoi (parts.getD 2 [])).toUInt32⟩

/-- The policy that an entry writes down: the prefix, the seed, and the segments. -/
def entryPolicy (entry : Bytes) : Policy where
  seed := (atoi ((writtenFields entry).getD 1 [])).toUInt32
  idPrefix := (writtenFields entry).getD 0 []
  confIdInfos := writtenSegments ((writtenFields entry).drop 2)

theorem filterMap_parseConfIdInfo (fields : List Bytes) :
    fields.filterMap parseConfIdInfo = writtenSegments fields := by
  induction fields with
  | nil => rfl
  | cons field fields ih =>
    unfold writtenSegments at ih ⊢
    rw [List.map_cons]
    by_cases three : (sepstr field (str ",") true).length = 3
    · obtain ⟨confId, startId, endId, hparts⟩ := List.length_eq_three.mp three
      have segment : parseConfIdInfo field =
          some ⟨confId, (atoi startId).toUInt32, (atoi endId).toUInt32⟩ := by
        simp only [parseConfIdInfo, hparts]
      rw [List.filterMap_cons_some segment, ih, List.filter_cons_of_pos (by simpa using three),
        hparts]
      rfl
    · have dropped : parseConfIdInfo field = none := by
        unfold parseConfIdInfo
        split
        · rename_i hparts
          exact absurd (by rw [hparts]; rfl) three
        · rfl
      rw [List.filterMap_cons_none dropped, ih, List.filter_cons_of_neg (by simpa using three)]

/-- Every entry with the right number of fields gives the policy that it writes down. -/
theorem parseEntry_of_not_malformed {entry : Bytes} (good : ¬Malformed entry) :
    parseEntry entry = some (entryProduct entry, entryPolicy entry) := by
  cases hentry : parseEntry entry with
  | none => exact absurd (parseEntry_eq_none.mp hentry) good
  | some result =>
    obtain ⟨productId, policy⟩ := result
    obtain ⟨text, idPrefix, seed, field, fields, hparts, hfields, rfl⟩ :=
      parseEntry_eq_some.mp hentry
    have written : writtenFields entry = idPrefix :: seed :: field :: fields := by
      rw [writtenFields, hparts]
      exact hfields
    rw [entryProduct, entryPolicy, written, hparts, filterMap_parseConfIdInfo]
    rfl

theorem parseEntries_append (a b : Bytes) :
    parseEntries (a ++ str ";" ++ b) = parseEntries a ++ parseEntries b := by
  have joined : a ++ str ";" ++ b = a ++ 59 :: b := by
    rw [List.append_assoc]
    rfl
  unfold parseEntries
  rw [joined, ← List.filterMap_append]
  exact congrArg _ (sepstr_append a b 59)

theorem parseEntries_entry {entry : Bytes} (single : 59 ∉ entry) :
    parseEntries entry = (parseEntry entry).toList := by
  unfold parseEntries
  rw [show sepstr entry (str ";") true = [entry] from sepstr_eq_singleton single]
  cases h : parseEntry entry <;> simp [h]

namespace DyeingOnlinePlugin

/-- The plugin after it has parsed a text for the business type. -/
def parsed (plugin : DyeingOnlinePlugin) (businessType productConf : Bytes) : DyeingOnlinePlugin :=
  (plugin.parseProductPolicy businessType productConf).2

theorem parsed_eq (plugin : DyeingOnlinePlugin) (businessType productConf : Bytes) :
    plugin.parsed businessType productConf = { plugin with
      policyMap := plugin.policyMap.insert businessType
        (assignAll (parseEntries productConf) (plugin.policies businessType)) } := by
  rw [parsed, parseProductPolicy, parseProducts_eq]
  rfl

@[simp] theorem policies_parsed (plugin : DyeingOnlinePlugin) (businessType productConf : Bytes) :
    (plugin.parsed businessType productConf).policies businessType =
      assignAll (parseEntries productConf) (plugin.policies businessType) := by
  simp only [parsed_eq, policies, Finmap.lookup_insert, Option.getD_some]

/-- The text counts for its entries only. -/
theorem parsed_congr {a b : Bytes} (same : parseEntries a = parseEntries b)
    (plugin : DyeingOnlinePlugin) (businessType : Bytes) :
    plugin.parsed businessType a = plugin.parsed businessType b := by
  rw [parsed_eq, parsed_eq, same]

theorem parsed_append (plugin : DyeingOnlinePlugin) (businessType a b : Bytes) :
    plugin.parsed businessType (a ++ str ";" ++ b) =
      (plugin.parsed businessType a).parsed businessType b := by
  rw [parsed_eq (plugin.parsed businessType a), policies_parsed, ← assignAll_append,
    ← parseEntries_append, parsed_eq, parsed_eq]
  simp only [Finmap.insert_insert]

end DyeingOnlinePlugin

/-- Parsing two texts that are joined is parsing one after the other.  An entry without the right
number of fields may as well be left out.  Any other entry gives its product the policy that it
writes down, whatever stands before it, and no later entry but one for the product takes it away. -/
theorem entries_isolated (plugin : DyeingOnlinePlugin) (businessType a b : Bytes) :
    (plugin.parsed businessType (a ++ str ";" ++ b)).policyMap =
      ((plugin.parsed businessType a).parsed businessType b).policyMap ∧
    (∀ entry, 59 ∉ entry → Malformed entry →
      plugin.parsed businessType (a ++ str ";" ++ entry ++ str ";" ++ b) =
        plugin.parsed businessType (a ++ str ";" ++ b) ∧
      plugin.parsed businessType (entry ++ str ";" ++ a) = plugin.parsed businessType a ∧
      plugin.parsed businessType (a ++ str ";" ++ entry) = plugin.parsed businessType a) ∧
    (∀ entry, 59 ∉ entry → ¬Malformed entry →
      let product := entryProduct entry
      let before := (plugin.parsed businessType a).policies businessType
      let after := (plugin.parsed businessType (a ++ str ";" ++ entry)).policies businessType
      let last := (plugin.parsed businessType (a ++ str ";" ++ entry ++ str ";" ++ b)).policies
        businessType
      after.lookup product = some (entryPolicy entry) ∧
      (∀ other, other ≠ product → after.lookup other = before.lookup other) ∧
      ((∀ later ∈ sepstr b (str ";") true, ¬Malformed later → entryProduct later ≠ product) →
        last.lookup product = some (entryPolicy entry))) := by
  refine ⟨congrArg _ (plugin.parsed_append businessType a b), ?_, ?_⟩
  · intro entry single malformed
    have nothing : parseEntries entry = [] := by
      rw [parseEntries_entry single, parseEntry_eq_none.mpr malformed]
      rfl
    refine ⟨?_, ?_, ?_⟩
    all_goals
      apply DyeingOnlinePlugin.parsed_congr
      simp only [parseEntries_append, nothing, List.append_nil, List.nil_append]
  · intro entry single good product before after last
    have one : parseEntries entry = [(product, entryPolicy entry)] := by
      rw [parseEntries_entry single, parseEntry_of_not_malformed good]
      rfl
    have value (other : Bytes) : lastValue [(product, entryPolicy entry)] other =
        if product = other then some (entryPolicy entry) else none := lastValue_cons ..
    simp only [before, after, last, DyeingOnlinePlugin.policies_parsed, parseEntries_append, one,
      lookup_assignAll, lastValue_append, value]
    refine ⟨by simp, fun other ne => by simp [Ne.symm ne], fun none => ?_⟩
    have free : product ∉ (parseEntries b).map Prod.fst := by
      intro hmem
      obtain ⟨⟨_, policy⟩, hentry, rfl⟩ := List.mem_map.mp hmem
      obtain ⟨later, hlater, hparse⟩ := List.mem_filterMap.mp hentry
      have laterGood : ¬Malformed later := fun malformed => by
        rw [parseEntry_eq_none.mpr malformed] at hparse
        cases hparse
      rw [parseEntry_of_not_malformed laterGood] at hparse
      exact none later hlater laterGood (Prod.mk.inj (Option.some.inj hparse)).1
    rw [lastValue_eq_none.mpr free]
    simp

/-- An entry in two pieces is left out, and of two entries for the product `p` the later one counts,
also when another product follows. -/
theorem entries_isolated_example :
    let plugin := DyeingOnlinePlugin.new (str "/o")
    let text := str "p|x:1:c,1,1000"
    let later := str "p|y:2:d,1,10:e,11"
    let other := str "q|z:3:f,1,1000"
    plugin.parsed (str "t") (text ++ str ";" ++ str "p|x" ++ str ";" ++ other) =
      plugin.parsed (str "t") (text ++ str ";" ++ other) ∧
    ((plugin.parsed (str "t") (text ++ str ";" ++ later ++ str ";" ++ other)).policies
      (str "t")).lookup (str "p") = some ⟨2, str "y", [⟨str "d", 1, 10⟩]⟩ := by
  intro plugin text later other
  obtain ⟨-, leftOut, overrides⟩ := entries_isolated plugin (str "t") text other
  have product : entryProduct later = str "p" := by decide
  have policy : entryPolicy later = ⟨2, str "y", [⟨str "d", 1, 10⟩]⟩ := by decide
  have good : ¬Malformed later := fun malformed => by
    have dropped := parseEntry_eq_none.mpr malformed
    revert dropped
    decide
  have elsewhere : ∀ entry ∈ sepstr other (str ";") true, entryProduct entry ≠ entryProduct later :=
    by decide
  have counts := (overrides later (by decide) good).2.2 fun entry hentry _ => elsewhere entry hentry
  rw [product, policy] at counts
  exact ⟨(leftOut (str "p|x") (by decide) (parseEntry_eq_none.mp (by decide))).1, counts⟩

end ABDyeing
