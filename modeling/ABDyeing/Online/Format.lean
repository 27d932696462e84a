import ABDyeing.Online.Load

/-! The documented format of a policy text, `product|prefix:seed:conf_id,start_id,end_id:...;...`,
and the proof that the loader reads back what is written in it.  At each level a field holds only
the separators of the levels below, so the cut at that level finds the fields that were joined. -/

namespace ABDyeing

open Lib

def separators : Bytes := str ";|:,"

/-- The separators that occur in `s` are among `allowed`. -/
def Within (allowed s : Bytes) : Prop := ∀ c ∈ s, c ∈ separators → c ∈ allowed

instance (allowed s : Bytes) : Decidable (Within allowed s) :=
  List.decidableBAll (fun c => c ∈ separators → c ∈ allowed) s

structure PlainText where
  text : Bytes
  clean : Within [] text

structure Segment where
  confId : PlainText
  startId : Fin (2 ^ 31)
  endId : Fin (2 ^ 31)

/-- A product entry as an operator writes it, with at least one segment. -/
structure ProductEntry where
  product : PlainText
  idPrefix : PlainText
  seed : Fin (2 ^ 31)
  segments : List Segment
  nonempty : segments ≠ []

def Segment.fields (segment : Segment) : List Bytes :=
  [segment.confId.text, decimal segment.startId, decimal segment.endId]

def Segment.render (segment : Segment) : Bytes := (str ",").intercalate segment.fields

def ProductEntry.policyFields (entry : ProductEntry) : List Bytes :=
  entry.idPrefix.text :: decimal entry.seed :: entry.segments.map Segment.render

def ProductEntry.fields (entry : ProductEntry) : List Bytes :=
  [entry.product.text, (str ":").intercalate entry.policyFields]

def ProductEntry.render (entry : ProductEntry) : Bytes := (str "|").intercalate entry.fields

def renderEntries (entries : List ProductEntry) : Bytes :=
  (str ";").intercalate (entries.map ProductEntry.render)

def Segment.info (segment : Segment) : ConfIdInfo :=
  ⟨segment.confId.text, UInt32.ofNat segment.startId, UInt32.ofNat segment.endId⟩

def ProductEntry.policy (entry : ProductEntry) : Policy :=
  ⟨UInt32.ofNat entry.seed, entry.idPrefix.text, entry.segments.map Segment.info⟩

theorem Within.mono {allowed more s : Bytes} (h : Within allowed s) (sub : allowed ⊆ more) :
    Within more s := fun c hc hsep => sub (h c hc hsep)

theorem decimal_within (n : Nat) : Within [] (decimal n) := by
  intro c hc hsep
  have noDigit : separators.all (fun c => !isDigit c) = true := by decide
  have hdigit : isDigit c = false := by simpa using List.all_eq_true.mp noDigit c hsep
  exact absurd hc (not_mem_decimal hdigit)

theorem intercalate_within {allowed : Bytes} {sep : UInt8} {fields : List Bytes}
    (h : ∀ f ∈ fields, Within allowed f) : Within (sep :: allowed) ([sep].intercalate fields) :=
  forall_mem_intercalate (q := fun c => c ∈ separators → c ∈ sep :: allowed)
    (fun _ => List.mem_cons_self) fun f hf => (h f hf).mono (List.subset_cons_self _ _)

/-- A join is cut into its fields where these keep within other separators. -/
theorem sepstr_join {allowed : Bytes} {fields : List Bytes} (h : ∀ f ∈ fields, Within allowed f)
    {sep : UInt8} (hsep : sep ∈ separators) (other : sep ∉ allowed) (nonempty : fields ≠ []) :
    sepstr ([sep].intercalate fields) [sep] true = fields := by
  refine sepstr_intercalate (by simp) (fun f hf c hc hmem => ?_) nonempty
  obtain rfl := List.mem_singleton.mp hmem
  exact other (h f hf c hc hsep)

theorem Segment.fields_within (segment : Segment) : ∀ f ∈ segment.fields, Within [] f := by
  intro f hf
  simp only [fields, List.mem_cons, List.not_mem_nil, or_false] at hf
  rcases hf with rfl | rfl | rfl
  · exact segment.confId.clean
  · exact decimal_within _
  · exact decimal_within _

theorem ProductEntry.policyFields_within (entry : ProductEntry) :
    ∀ f ∈ entry.policyFields, Within (str ",") f := by
  intro f hf
  simp only [policyFields, List.mem_cons, List.mem_map] at hf
  rcases hf with rfl | rfl | ⟨segment, _, rfl⟩
  · exact entry.idPrefix.clean.mono (by simp)
  · exact (decimal_within _).mono (by simp)
  · exact intercalate_within segment.fields_within

theorem ProductEntry.fields_within (entry : ProductEntry) :
    ∀ f ∈ entry.fields, Within (str ":,") f := by
  intro f hf
  simp only [fields, List.mem_cons, List.not_mem_nil, or_false] at hf
  rcases hf with rfl | rfl
  · exact entry.product.clean.mono (by simp)
  · exact intercalate_within entry.policyFields_within

theorem render_within {entries : List ProductEntry} :
    ∀ f ∈ entries.map ProductEntry.render, Within (str "|:,") f := by
  intro f hf
  obtain ⟨entry, _, rfl⟩ := List.mem_map.mp hf
  exact intercalate_within entry.fields_within

theorem parseConfIdInfo_render (segment : Segment) :
    parseConfIdInfo segment.render = some segment.info := by
  have cut : sepstr segment.render (str ",") true = segment.fields :=
    sepstr_join segment.fields_within (by decide) (by decide) (by simp [Segment.fields])
  simp only [parseConfIdInfo, cut, Segment.fields, atoi_decimal_toUInt32 segment.startId.isLt,
    atoi_decimal_toUInt32 segment.endId.isLt, Segment.info]

theorem parseEntry_render (entry : ProductEntry) :
    parseEntry entry.render = some (entry.product.text, entry.policy) := by
  have cut : sepstr entry.render (str "|") true =
      [entry.product.text, (str ":").intercalate entry.policyFields] :=
    sepstr_join entry.fields_within (by decide) (by decide) (by simp [ProductEntry.fields])
  have cutPolicy : sepstr ((str ":").intercalate entry.policyFields) (str ":") true =
      entry.idPrefix.text :: decimal entry.seed :: entry.segments.map Segment.render :=
    sepstr_join entry.policyFields_within (by decide) (by decide)
      (by simp [ProductEntry.policyFields])
  have segments : (entry.segments.map Segment.render).filterMap parseConfIdInfo =
      entry.segments.map Segment.info := by
    have each : parseConfIdInfo ∘ Segment.render = some ∘ Segment.info :=
      funext parseConfIdInfo_render
    rw [List.filterMap_map, each, List.filterMap_eq_map]
  obtain ⟨segment, rest, hsegments⟩ := List.exists_cons_of_ne_nil entry.nonempty
  rw [hsegments, List.map_cons] at cutPolicy segments
  refine parseEntry_eq_some.mpr ⟨_, _, _, _, _, cut, cutPolicy, ?_⟩
  rw [segments, atoi_decimal_toUInt32 entry.seed.isLt, ProductEntry.policy, hsegments,
    List.map_cons]

theorem parseEntries_render {entries : List ProductEntry} (nonempty : entries ≠ []) :
    parseEntries (renderEntries entries) =
      entries.map fun entry => (entry.product.text, entry.policy) := by
  have cut : sepstr (renderEntries entries) (str ";") true = entries.map ProductEntry.render :=
    sepstr_join render_within (by decide) (by decide) (by simpa using nonempty)
  have each : parseEntry ∘ ProductEntry.render =
      some ∘ fun entry => (entry.product.text, entry.policy) := funext parseEntry_render
  rw [parseEntries, cut, List.filterMap_map, each, List.filterMap_eq_map]

theorem renderEntries_ne_nil {entries : List ProductEntry} (nonempty : entries ≠ []) :
    renderEntries entries ≠ [] := by
  intro h
  have hmap := parseEntries_render nonempty
  rw [h, parseEntries_empty] at hmap
  exact nonempty (List.map_eq_nil_iff.mp hmap.symm)

/-- Reading a rendered list into a new plugin gives, for its business type, the listed products,
each with the policy of the last entry listed for it. -/
theorem loadInternal_render {store : Store} {node : Bytes → Bytes} (holds : store.Holds node)
    (pathPrefix businessType : Bytes) {entries : List ProductEntry} (nonempty : entries ≠ [])
    (text : node (fullPath pathPrefix businessType) = renderEntries entries)
    (n : Nat) :
    ∃ productPolicyMap : UnorderedMap Bytes Policy,
      DyeingOnlinePlugin.loadInternal store (.new pathPrefix) businessType n =
        .ok ((true, ⟨pathPrefix,
          (∅ : UnorderedMap Bytes _).insert businessType productPolicyMap⟩), n + 1) ∧
      (∀ product, product ∈ productPolicyMap ↔ ∃ entry ∈ entries, entry.product.text = product) ∧
      ∀ before entry after, entries = before ++ entry :: after →
        (∀ later ∈ after, later.product.text ≠ entry.product.text) →
        productPolicyMap.lookup entry.product.text = some ⟨UInt32.ofNat entry.seed,
          entry.idPrefix.text, entry.segments.map fun segment =>
            ⟨segment.confId.text, UInt32.ofNat segment.startId, UInt32.ofNat segment.endId⟩⟩ := by
  refine ⟨assignAll (entries.map fun entry => (entry.product.text, entry.policy)) ∅, ?_, ?_, ?_⟩
  · have hmap := DyeingOnlinePlugin.loadInternal_of_reads (holds n) (.new pathPrefix) businessType
    rw [DyeingOnlinePlugin.new_pathPrefix, text,
      DyeingOnlinePlugin.loadText_of_ne_nil (renderEntries_ne_nil nonempty),
      parseEntries_render nonempty, DyeingOnlinePlugin.new_policies] at hmap
    exact hmap
  · intro product
    simp [mem_assignAll, Finmap.notMem_empty]
  · intro before entry after hentries later
    rw [lookup_assignAll, Finmap.lookup_empty, Option.or_none]
    rw [hentries, List.map_append, List.map_cons]
    refine lastValue_eq_some.mpr ⟨_, _, rfl, ?_⟩
    rw [List.map_map]
    intro hmem
    obtain ⟨e, he, heq⟩ := List.mem_map.mp hmem
    exact later e he heq

def wholeEntry : ProductEntry :=
  ⟨⟨str "emui", by decide⟩, ⟨[], by decide⟩, 0, [⟨⟨str "62", by decide⟩, 1, 1000⟩], by simp⟩

def dividedEntry : ProductEntry :=
  ⟨⟨str "emui", by decide⟩, ⟨str "b", by decide⟩, 1,
    [⟨⟨str "63", by decide⟩, 1, 200⟩, ⟨⟨[], by decide⟩, 201, 1000⟩], by simp⟩

theorem loadInternal_render_sample :
    ∃ productPolicyMap : UnorderedMap Bytes Policy,
      DyeingOnlinePlugin.loadInternal (steady fun _ => renderEntries [wholeEntry, dividedEntry])
        (.new (str "/p")) (str "t") 0 =
        .ok ((true, ⟨str "/p", (∅ : UnorderedMap Bytes _).insert (str "t") productPolicyMap⟩), 1) ∧
      productPolicyMap.lookup (str "emui") =
        some ⟨1, str "b", [⟨str "63", 1, 200⟩, ⟨[], 201, 1000⟩]⟩ := by
  obtain ⟨m, hload, -, hlast⟩ := loadInternal_render
    (steady_holds fun _ => renderEntries [wholeEntry, dividedEntry]) (str "/p") (str "t") (by simp)
    rfl 0
  exact ⟨m, hload, hlast [wholeEntry] dividedEntry [] rfl (by simp)⟩

end ABDyeing
