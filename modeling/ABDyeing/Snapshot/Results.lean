import ABDyeing.Snapshot.System

/-! The replies of a call beside a flush are exactly the mixtures of old and new versions that the
order of the two assignments allows. -/

namespace ABDyeing

open Lib

/-- The old white list for the types before the one with the number `i`, the new one from there on,
and likewise the online plugin with `j`. -/
def mixed (published : Published) (whiteList : Option DyeingWhiteListPlugin)
    (onlinePlugin : Option DyeingOnlinePlugin) (i j k : Nat) : Published :=
  { published with
    whiteList := if k < i then published.whiteList else whiteList
    onlinePlugin := if k < j then published.onlinePlugin else onlinePlugin }

namespace System

section Runs

variable {city : CityHash} {faults : Nat → Faults} {uid : Bytes} {req : ABDyeingLanRequest}
  {versions : Nat → Published} {s : System} {w o : Nat}

variable {published : Published} {whiteList : Option DyeingWhiteListPlugin}
  {onlinePlugin : Option DyeingOnlinePlugin} {i j w' o' : Nat}

/-- The pointers hold `x` and `y`, and the other sources are those of `published`. -/
def Holds (s : System) (published : Published) (x : Option DyeingWhiteListPlugin)
    (y : Option DyeingOnlinePlugin) : Prop :=
  s.published = { published with whiteList := x, onlinePlugin := y }

variable {x : Option DyeingWhiteListPlugin} {y : Option DyeingOnlinePlugin}

theorem sees_types {logic : DyeingLogic} {k : Nat} {types : List Bytes}
    (point : s.point = .types logic k types) (holds : s.Holds published x y)
    (h : k < i ∧ x = published.whiteList ∨ i ≤ k ∧ x = whiteList) :
    s.Sees (mixed published whiteList onlinePlugin i j) := by
  unfold Sees
  rw [point, holds]
  rcases h with ⟨hk, rfl⟩ | ⟨hk, rfl⟩
  · exact if_pos hk
  · exact if_neg (by omega)

theorem sees_online {logic : DyeingLogic} {k : Nat} {name type : Bytes} {rest : List Bytes}
    (point : s.point = .online logic k name type rest) (holds : s.Holds published x y)
    (h : k < j ∧ y = published.onlinePlugin ∨ j ≤ k ∧ y = onlinePlugin) :
    s.Sees (mixed published whiteList onlinePlugin i j) := by
  unfold Sees
  rw [point, holds]
  rcases h with ⟨hk, rfl⟩ | ⟨hk, rfl⟩
  · exact if_pos hk
  · exact if_neg (by omega)

theorem sees_mixed (holds : s.Holds published x y) (next : s.Next w o) (passes : s.Passes w' o')
    (white : w' ≤ i ∧ x = published.whiteList ∨ i ≤ w ∧ x = whiteList)
    (online : o' ≤ j ∧ y = published.onlinePlugin ∨ j ≤ o ∧ y = onlinePlugin) :
    s.Sees (mixed published whiteList onlinePlugin i j) := by
  cases point : s.point with
  | returned result => simp only [Sees, point]
  | types logic k types =>
    simp only [Next, point] at next
    simp only [Passes, point] at passes
    exact sees_types point holds (white.imp (And.imp_left passes.trans_le)
      (And.imp_left fun hi => hi.trans next.1.le))
  | online logic k name type rest =>
    simp only [Next, point] at next
    simp only [Passes, point] at passes
    exact sees_online point holds (online.imp (And.imp_left passes.trans_le)
      (And.imp_left fun hj => hj.trans next.2.le))

theorem sameUsers_mixed (holds : s.Holds published x y) :
    SameUsers (mixed published whiteList onlinePlugin i j) s.published := by
  rw [holds]
  exact fun _ => ⟨rfl, rfl, rfl⟩

theorem holds_callStep (holds : s.Holds published x y) :
    (s.callStep city faults uid req).Holds published x y :=
  (callStep_frame city faults uid req s).1.trans holds

theorem holds_flush_white (holds : s.Holds published x y) {writes : List Publication}
    (h : s.writes = .whiteList whiteList :: writes) :
    s.flushStep.Holds published whiteList y ∧ s.flushStep.writes = writes ∧
      s.flushStep.point = s.point ∧ s.flushStep.reply = s.reply := by
  simp only [flushStep, h, Publication.apply, Holds, and_true]
  rw [holds]

theorem holds_flush_online (holds : s.Holds published x y) {writes : List Publication}
    (h : s.writes = .onlinePlugin onlinePlugin :: writes) :
    s.flushStep.Holds published x onlinePlugin ∧ s.flushStep.writes = writes ∧
      s.flushStep.point = s.point ∧ s.flushStep.reply = s.reply := by
  simp only [flushStep, h, Publication.apply, Holds, and_true]
  rw [holds]

theorem next_of_point {t : System} (point : t.point = s.point) (next : s.Next w o) :
    t.Next w o := by
  unfold Next
  rw [point]
  exact next

theorem outcome_eq {t : System} (point : t.point = s.point) (reply : t.reply = s.reply) :
    t.outcome city faults uid req versions = s.outcome city faults uid req versions := by
  simp only [outcome, point, reply]

theorem outcome_of_returned {result : Outcome Exception ABDyeingReply}
    (returned : s.point = .returned result) (versions : Nat → Published) :
    s.outcome city faults uid req versions = result := by
  simp only [outcome, returned]

/-- After both assignments every further read meets the new versions. -/
theorem run_both (holds : s.Holds published whiteList onlinePlugin) (writes : s.writes = [])
    (next : s.Next w o) (hle : w ≤ o + 1) (hi : i ≤ w) (hj : j ≤ o) (schedule : List Actor)
    {result : Outcome Exception ABDyeingReply}
    (returned : (s.run city faults uid req schedule).point = .returned result) :
    s.outcome city faults uid req (mixed published whiteList onlinePlugin i j) = result := by
  induction schedule generalizing s w o with
  | nil => exact outcome_of_returned returned _
  | cons actor schedule ih =>
    cases actor with
    | flush =>
      have same : s.flushStep = s := by simp only [flushStep, writes]
      apply ih holds writes next hle hi hj
      rw [run, List.foldl_cons, step, same] at returned
      exact returned
    | call =>
      obtain ⟨w', o', next', hle', hw, ho, passes⟩ := next_callStep city faults uid req next hle
      have sees : s.Sees (mixed published whiteList onlinePlugin i j) :=
        sees_mixed holds next passes (.inr ⟨hi, rfl⟩) (.inr ⟨hj, rfl⟩)
      rw [← outcome_callStep city faults uid req sees (sameUsers_mixed holds)]
      exact ih (holds_callStep holds) ((callStep_frame city faults uid req s).2.trans writes) next'
        hle' (hi.trans hw) (hj.trans ho) returned

/-- After the first assignment every further white list is the new one. -/
theorem run_white (holds : s.Holds published whiteList published.onlinePlugin)
    (writes : s.writes = [.onlinePlugin onlinePlugin]) (next : s.Next w o) (hle : w ≤ o + 1)
    (schedule : List Actor) :
    ∃ j, o ≤ j ∧ ∀ i ≤ w, ∀ result,
      (s.run city faults uid req schedule).point = .returned result →
      s.outcome city faults uid req (mixed published whiteList onlinePlugin i j) = result := by
  induction schedule generalizing s w o with
  | nil =>
    exact ⟨o, le_rfl, fun i _ result returned => outcome_of_returned returned _⟩
  | cons actor schedule ih =>
    cases actor with
    | flush =>
      refine ⟨o, le_rfl, fun i hi result returned => ?_⟩
      obtain ⟨holds', writes', point, reply⟩ := holds_flush_online holds writes
      rw [← outcome_eq point reply]
      exact run_both holds' writes' (next_of_point point next) hle hi (le_refl o) schedule returned
    | call =>
      obtain ⟨w', o', next', hle', hw, ho, passes⟩ := next_callStep city faults uid req next hle
      obtain ⟨j, hj, ih⟩ := ih (holds_callStep holds)
        ((callStep_frame city faults uid req s).2.trans writes) next' hle'
      refine ⟨j, ho.trans hj, fun i hi result returned => ?_⟩
      have sees : s.Sees (mixed published whiteList onlinePlugin i j) :=
        sees_mixed holds next passes (.inr ⟨hi, rfl⟩) (.inl ⟨hj, rfl⟩)
      rw [← outcome_callStep city faults uid req sees (sameUsers_mixed holds)]
      exact ih i (hi.trans hw) result returned

/-- Before the assignments every read meets the old versions. -/
theorem run_none (holds : s.Holds published published.whiteList published.onlinePlugin)
    (writes : s.writes = [.whiteList whiteList, .onlinePlugin onlinePlugin]) (next : s.Next w o)
    (hle : w ≤ o + 1) (schedule : List Actor) :
    ∃ i j, w ≤ i ∧ o ≤ j ∧ i ≤ j + 1 ∧ ∀ result,
      (s.run city faults uid req schedule).point = .returned result →
      s.outcome city faults uid req (mixed published whiteList onlinePlugin i j) = result := by
  induction schedule generalizing s w o with
  | nil =>
    exact ⟨w, o, le_rfl, le_rfl, hle, fun result returned => outcome_of_returned returned _⟩
  | cons actor schedule ih =>
    cases actor with
    | flush =>
      obtain ⟨holds', writes', point, reply⟩ := holds_flush_white holds writes
      obtain ⟨j, hj, later⟩ := run_white holds' writes' (next_of_point point next) hle schedule
      refine ⟨w, j, le_rfl, hj, by omega, fun result returned => ?_⟩
      rw [← outcome_eq point reply]
      exact later w le_rfl result returned
    | call =>
      obtain ⟨w', o', next', hle', hw, ho, passes⟩ := next_callStep city faults uid req next hle
      obtain ⟨i, j, hi, hj, hij, ih⟩ := ih (holds_callStep holds)
        ((callStep_frame city faults uid req s).2.trans writes) next' hle'
      refine ⟨i, j, hw.trans hi, ho.trans hj, hij, fun result returned => ?_⟩
      have sees : s.Sees (mixed published whiteList onlinePlugin i j) :=
        sees_mixed holds next passes (.inl ⟨hi, rfl⟩) (.inl ⟨hj, rfl⟩)
      rw [← outcome_callStep city faults uid req sees (sameUsers_mixed holds)]
      exact ih result returned

/-- The assignments made so far leave it open that the reads from `w` and `o` on meet the mixture
with `i` and `j`. -/
def Fits (s : System) (published : Published) (whiteList : Option DyeingWhiteListPlugin)
    (onlinePlugin : Option DyeingOnlinePlugin) (i j w o : Nat) : Prop :=
  (s.Holds published published.whiteList published.onlinePlugin ∧
    s.writes = [.whiteList whiteList, .onlinePlugin onlinePlugin]) ∨
  (s.Holds published whiteList published.onlinePlugin ∧
    s.writes = [.onlinePlugin onlinePlugin] ∧ i ≤ w) ∨
  (s.Holds published whiteList onlinePlugin ∧ s.writes = [] ∧ i ≤ w ∧ j ≤ o)

theorem Fits.mono (fits : s.Fits published whiteList onlinePlugin i j w o) (hw : w ≤ w')
    (ho : o ≤ o') :
    (s.callStep city faults uid req).Fits published whiteList onlinePlugin i j w' o' := by
  have hwrites := (callStep_frame city faults uid req s).2
  rcases fits with ⟨holds, writes⟩ | ⟨holds, writes, hi⟩ | ⟨holds, writes, hi, hj⟩
  · exact .inl ⟨holds_callStep holds, hwrites.trans writes⟩
  · exact .inr (.inl ⟨holds_callStep holds, hwrites.trans writes, hi.trans hw⟩)
  · exact .inr (.inr ⟨holds_callStep holds, hwrites.trans writes, hi.trans hw, hj.trans ho⟩)

variable (city faults uid req) in
/-- Some assignments later the next read meets what the mixture has at its number. -/
theorem flush_ready (fits : s.Fits published whiteList onlinePlugin i j w o) (next : s.Next w o)
    (hij : i ≤ j + 1) :
    ∃ schedule, let ready := s.run city faults uid req schedule
      ready.point = s.point ∧ ready.reply = s.reply ∧
        ready.Fits published whiteList onlinePlugin i j w o ∧
        ready.Sees (mixed published whiteList onlinePlugin i j) := by
  cases hpoint : s.point with
  | returned result => exact ⟨[], hpoint, rfl, fits, by simp [run, Sees, hpoint]⟩
  | types logic k types =>
    simp only [Next, hpoint] at next
    obtain ⟨rfl, rfl⟩ := next
    rcases fits with ⟨holds, writes⟩ | ⟨holds, writes, hi⟩ | ⟨holds, writes, hi, hj⟩
    · by_cases hw : i ≤ o
      · obtain ⟨holds', writes', point, reply⟩ := holds_flush_white holds writes
        exact ⟨[.flush], point.trans hpoint, reply, .inr (.inl ⟨holds', writes', hw⟩),
          sees_types (point.trans hpoint) holds' (.inr ⟨hw, rfl⟩)⟩
      · exact ⟨[], hpoint, rfl, .inl ⟨holds, writes⟩,
          sees_types hpoint holds (.inl ⟨not_le.mp hw, rfl⟩)⟩
    · exact ⟨[], hpoint, rfl, .inr (.inl ⟨holds, writes, hi⟩),
        sees_types hpoint holds (.inr ⟨hi, rfl⟩)⟩
    · exact ⟨[], hpoint, rfl, .inr (.inr ⟨holds, writes, hi, hj⟩),
        sees_types hpoint holds (.inr ⟨hi, rfl⟩)⟩
  | online logic k name type rest =>
    simp only [Next, hpoint] at next
    obtain ⟨rfl, rfl⟩ := next
    rcases fits with ⟨holds, writes⟩ | ⟨holds, writes, hi⟩ | ⟨holds, writes, hi, hj⟩
    · by_cases ho : j ≤ o
      · obtain ⟨holds₁, writes₁, point₁, reply₁⟩ := holds_flush_white holds writes
        obtain ⟨holds₂, writes₂, point₂, reply₂⟩ := holds_flush_online holds₁ writes₁
        have point := point₂.trans (point₁.trans hpoint)
        exact ⟨[.flush, .flush], point, reply₂.trans reply₁,
          .inr (.inr ⟨holds₂, writes₂, by omega, ho⟩), sees_online point holds₂ (.inr ⟨ho, rfl⟩)⟩
      · exact ⟨[], hpoint, rfl, .inl ⟨holds, writes⟩,
          sees_online hpoint holds (.inl ⟨not_le.mp ho, rfl⟩)⟩
    · by_cases ho : j ≤ o
      · obtain ⟨holds', writes', point, reply⟩ := holds_flush_online holds writes
        exact ⟨[.flush], point.trans hpoint, reply, .inr (.inr ⟨holds', writes', hi, ho⟩),
          sees_online (point.trans hpoint) holds' (.inr ⟨ho, rfl⟩)⟩
      · exact ⟨[], hpoint, rfl, .inr (.inl ⟨holds, writes, hi⟩),
          sees_online hpoint holds (.inl ⟨not_le.mp ho, rfl⟩)⟩
    · exact ⟨[], hpoint, rfl, .inr (.inr ⟨holds, writes, hi, hj⟩),
        sees_online hpoint holds (.inr ⟨hj, rfl⟩)⟩

variable (city faults uid req)

theorem run_append (s : System) (done rest : List Actor) :
    s.run city faults uid req (done ++ rest) =
      (s.run city faults uid req done).run city faults uid req rest :=
  List.foldl_append

/-- Every mixture that the order of the assignments allows is the result of some schedule. -/
theorem exists_schedule {published : Published} {whiteList : Option DyeingWhiteListPlugin}
    {onlinePlugin : Option DyeingOnlinePlugin} {i j : Nat} (hij : i ≤ j + 1) {bound : Nat}
    {s : System} {w o : Nat} (steps : s.stepsLeft ≤ bound) (next : s.Next w o) (hle : w ≤ o + 1)
    (fits : s.Fits published whiteList onlinePlugin i j w o) :
    ∃ schedule, (s.run city faults uid req schedule).point =
      .returned (s.outcome city faults uid req (mixed published whiteList onlinePlugin i j)) := by
  induction bound generalizing s w o with
  | zero =>
    obtain ⟨result, point⟩ := stepsLeft_eq_zero.mp (Nat.le_zero.mp steps)
    exact ⟨[], by simp only [run, List.foldl_nil, outcome, point]⟩
  | succ bound ih =>
    obtain ⟨flushes, point, reply, fits', sees⟩ := flush_ready city faults uid req fits next hij
    have users : SameUsers (mixed published whiteList onlinePlugin i j)
        (s.run city faults uid req flushes).published := by
      rcases fits' with ⟨holds, -⟩ | ⟨holds, -⟩ | ⟨holds, -⟩ <;> exact sameUsers_mixed holds
    have same := outcome_callStep city faults uid req sees users
    rw [outcome_eq point reply] at same
    obtain ⟨w', o', next', hle', hw, ho, -⟩ :=
      next_callStep city faults uid req (next_of_point point next) hle
    have fewer : ((s.run city faults uid req flushes).callStep city faults uid req).stepsLeft ≤
        bound := by
      have hstep := stepsLeft_callStep city faults uid req (s.run city faults uid req flushes)
      have hsame : (s.run city faults uid req flushes).stepsLeft = s.stepsLeft := by
        simp only [stepsLeft, point]
      omega
    obtain ⟨schedule, returned⟩ := ih fewer next' hle' (fits'.mono hw ho)
    refine ⟨flushes ++ .call :: schedule, ?_⟩
    rw [run_append, ← same, ← returned]
    rfl

end Runs

section Start

variable (city : CityHash) (faults : Nat → Faults) (uid : Bytes) (req : ABDyeingLanRequest)
  (handler : ABDyeingHandler) (thread : Nat) (reply : ABDyeingReply)
  (whiteList : Option DyeingWhiteListPlugin) (onlinePlugin : Option DyeingOnlinePlugin)

theorem start_cases :
    (start handler thread req reply whiteList onlinePlugin).point =
        .returned (.ok { reply with status := .rcServerError }) ∧
      (handler.getLogic thread = none ∨ req.types.isEmpty) ∨
    ∃ logic, handler.getLogic thread = some logic ∧ ¬req.types.isEmpty ∧
      (start handler thread req reply whiteList onlinePlugin).point =
        .types logic 0 req.types := by
  unfold start
  cases handler.getLogic thread with
  | none => exact .inl ⟨rfl, .inl rfl⟩
  | some logic =>
    by_cases hempty : req.types.isEmpty = true
    · exact .inl ⟨if_pos hempty, .inr hempty⟩
    · exact .inr ⟨logic, rfl, hempty, if_neg hempty⟩

theorem start_next : (start handler thread req reply whiteList onlinePlugin).Next 0 0 := by
  unfold Next
  rcases start_cases req handler thread reply whiteList onlinePlugin with
    ⟨point, -⟩ | ⟨logic, -, -, point⟩
  · rw [point]
    trivial
  · rw [point]
    exact ⟨rfl, rfl⟩

theorem start_stepsLeft :
    (start handler thread req reply whiteList onlinePlugin).stepsLeft ≤
      2 * req.types.length + 1 := by
  unfold stepsLeft
  rcases start_cases req handler thread reply whiteList onlinePlugin with
    ⟨point, -⟩ | ⟨logic, -, -, point⟩
  · rw [point]
    exact Nat.zero_le _
  · rw [point]

theorem start_outcome (versions : Nat → Published) :
    (start handler thread req reply whiteList onlinePlugin).outcome city faults uid req versions =
      replyWith city faults uid req versions handler thread reply := by
  unfold outcome replyWith
  rcases start_cases req handler thread reply whiteList onlinePlugin with
    ⟨point, hlogic | hempty⟩ | ⟨logic, hlogic, hempty, point⟩
  · rw [point, hlogic]
  · rw [point]
    cases handler.getLogic thread with
    | none => rfl
    | some logic => exact (if_pos hempty).symm
  · rw [point, hlogic]
    exact (if_neg hempty).symm

theorem start_holds : (start handler thread req reply whiteList onlinePlugin).Holds
    handler.toPublished handler.whiteList handler.onlinePlugin := rfl

/-- The two steps of the flush publish what an undisturbed `flushPolicy` does. -/
theorem start_flushed {node : Bytes → Bytes} {store : Store} (holds : store.Holds node) (n : Nat) :
    (start handler thread req reply (handler.nextWhiteList node)
      (handler.nextOnlinePlugin node)).flushStep.flushStep.published =
      (handler.flushPolicy store n).1.toPublished := by
  rw [ABDyeingHandler.flushPolicy_of_holds holds]
  rfl

/-- The call with `whiteList` and `onlinePlugin` published all the time. -/
def replyUnder : Outcome Exception ABDyeingReply :=
  ABDyeingHandler.dyeingLan city
    { handler with whiteList := whiteList, onlinePlugin := onlinePlugin } thread faults reply uid
    req

/-- The call with the old versions for the first types, up to the white list with the number `i` and
the online plugin with the number `j`. -/
def replyMixed (i j : Nat) : Outcome Exception ABDyeingReply :=
  replyWith city faults uid req (mixed handler.toPublished whiteList onlinePlugin i j) handler
    thread reply

theorem replyMixed_new : replyMixed city faults uid req handler thread reply whiteList onlinePlugin
    0 0 = replyUnder city faults uid req handler thread reply whiteList onlinePlugin := by
  rw [replyUnder, dyeingLan_eq_replyWith]
  rfl

theorem replyWith_congr {versions others : Nat → Published}
    (same : ∀ k < req.types.length, versions k = others k) :
    replyWith city faults uid req versions handler thread reply =
      replyWith city faults uid req others handler thread reply := by
  unfold replyWith
  cases handler.getLogic thread with
  | none => rfl
  | some logic =>
    have loop := typesWith_congr city faults uid req logic (i := 0)
      (fun k _ hk => same k (by simpa using hk)) reply
    simp only [loop]

theorem replyMixed_old {i j : Nat} (hi : req.types.length ≤ i) (hj : req.types.length ≤ j) :
    replyMixed city faults uid req handler thread reply whiteList onlinePlugin i j =
      replyUnder city faults uid req handler thread reply handler.whiteList
        handler.onlinePlugin := by
  rw [replyUnder, dyeingLan_eq_replyWith]
  refine replyWith_congr city faults uid req handler thread reply fun k hk => ?_
  simp only [mixed, if_pos (hk.trans_le hi), if_pos (hk.trans_le hj)]

end Start

/-- A call beside a flush returns, and its results are exactly those of the versions going from old
to new at some type each, the white list at most one type after the online plugin. -/
theorem results_iff (city : CityHash) (faults : Nat → Faults) (uid : Bytes)
    (req : ABDyeingLanRequest) (handler : ABDyeingHandler) (thread : Nat) (reply : ABDyeingReply)
    (whiteList : Option DyeingWhiteListPlugin) (onlinePlugin : Option DyeingOnlinePlugin) :
    let s := start handler thread req reply whiteList onlinePlugin
    let mixture := replyMixed city faults uid req handler thread reply whiteList onlinePlugin
    (∀ schedule, 2 * req.types.length + 1 ≤ schedule.count .call →
      ∃ result, (s.run city faults uid req schedule).point = .returned result) ∧
    (∀ result, (∃ schedule, (s.run city faults uid req schedule).point = .returned result) ↔
      ∃ i j, i ≤ j + 1 ∧ result = mixture i j) ∧
    mixture 0 0 = replyUnder city faults uid req handler thread reply whiteList onlinePlugin ∧
    ∀ i j, req.types.length ≤ i → req.types.length ≤ j → mixture i j =
      replyUnder city faults uid req handler thread reply handler.whiteList
        handler.onlinePlugin := by
  intro s mixture
  have next : s.Next 0 0 :=
    start_next req handler thread reply whiteList onlinePlugin
  refine ⟨fun schedule enough => ?_, fun result => ⟨?_, ?_⟩,
    replyMixed_new city faults uid req handler thread reply whiteList onlinePlugin,
    fun i j => replyMixed_old city faults uid req handler thread reply whiteList onlinePlugin⟩
  · have bound := stepsLeft_run city faults uid req s schedule
    have start := start_stepsLeft req handler thread reply whiteList onlinePlugin
    apply stepsLeft_eq_zero.mp
    have : s.stepsLeft ≤ 2 * req.types.length + 1 := start
    omega
  · intro ⟨schedule, returned⟩
    obtain ⟨i, j, -, -, hij, found⟩ := run_none
      (start_holds req handler thread reply whiteList onlinePlugin) rfl next (by omega) schedule
    refine ⟨i, j, hij, ?_⟩
    rw [← found result returned]
    exact start_outcome city faults uid req handler thread reply whiteList onlinePlugin _
  · intro ⟨i, j, hij, hresult⟩
    obtain ⟨schedule, returned⟩ := exists_schedule city faults uid req hij
      (start_stepsLeft req handler thread reply whiteList onlinePlugin) next
      (by omega) (.inl ⟨start_holds req handler thread reply whiteList onlinePlugin, rfl⟩)
    refine ⟨schedule, returned.trans (congrArg _ ?_)⟩
    rw [hresult]
    exact start_outcome city faults uid req handler thread reply whiteList onlinePlugin _

/-- A white list that gives `u` the config id `c` for the types `s` and `t`. -/
def bothTypes (c : Bytes) : DyeingWhiteListPlugin :=
  (((DyeingWhiteListPlugin.new (str "/w")).pushConf (str "s") (str "u") c).pushConf (str "t")
    (str "u") c)

def whiteListed : ABDyeingHandler :=
  { ABDyeingHandler.blank [str "s", str "t"] with
    whiteList := some (bothTypes (str "a"))
    logics := fun _ => some ⟨str "fresh"⟩ }

/-- The flush publishes between the two types of a request, which are answered from the two white
lists. -/
theorem results_not_snapshot :
    let req : ABDyeingLanRequest := ⟨str "app", [], [], [str "s", str "t"]⟩
    let whole := replyUnder (fun _ _ => 0) (fun _ _ => none) (str "u") req whiteListed 0 .new
    ¬∀ schedule result,
      ((start whiteListed 0 req .new (some (bothTypes (str "b"))) whiteListed.onlinePlugin).run
        (fun _ _ => 0) (fun _ _ => none) (str "u") req schedule).point = .returned result →
      result = whole whiteListed.whiteList whiteListed.onlinePlugin ∨
        result = whole (some (bothTypes (str "b"))) whiteListed.onlinePlugin := by
  intro req whole snapshot
  have oldReply : whole whiteListed.whiteList whiteListed.onlinePlugin =
      .ok ⟨.rcStatusOk, true, [⟨str "s", str "a"⟩, ⟨str "t", str "a"⟩]⟩ := rfl
  have newReply : whole (some (bothTypes (str "b"))) whiteListed.onlinePlugin =
      .ok ⟨.rcStatusOk, true, [⟨str "s", str "b"⟩, ⟨str "t", str "b"⟩]⟩ := rfl
  have mixedReply := snapshot [.call, .flush, .call, .call]
    (.ok ⟨.rcStatusOk, true, [⟨str "s", str "a"⟩, ⟨str "t", str "b"⟩]⟩) rfl
  rw [oldReply, newReply] at mixedReply
  rcases mixedReply with h | h
  · exact absurd (Except.ok.inj h) (by decide)
  · exact absurd (Except.ok.inj h) (by decide)

end System

end ABDyeing
