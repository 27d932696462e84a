import ABDyeing.Handler

/-! What `flushFreshUserPolicy` does under each outcome of its two refreshes.  The connection and
the reading of the records stand outside the `try` blocks, so their exceptions leave the function,
and where the first refresh throws the second one is not made. -/

namespace ABDyeing

open Lib

namespace ABDyeingHandler

variable {node : Bytes → Bytes} {store : Store} (holds : store.Holds node)
  (handler after : ABDyeingHandler) (client : MysqlClient) (time : Int64) (clock : Nat → UInt64)

def FreshHarmless (node : Bytes → Bytes) : Prop :=
  Harmless client (storedDBConf node handler.freshPrefix) (DyeingFreshUserPlugin.sql time)
    DyeingFreshUserPlugin.columns

def PushHarmless (node : Bytes → Bytes) : Prop :=
  Harmless client (storedDBConf node handler.freshPrefix) DyeingPushUserTypePlugin.sql
    DyeingPushUserTypePlugin.columns

/-- After a flush the new users are what their own query says: a plugin with its complete result,
or the one from before where it has none. -/
def FreshFollows (node : Bytes → Bytes) : Prop :=
  let refreshes := Refreshes client (storedDBConf node handler.freshPrefix)
    (DyeingFreshUserPlugin.sql time) DyeingFreshUserPlugin.columns
  (∀ records, refreshes records → ∃ plugin, after.freshUser = some plugin ∧ plugin.Holds records) ∧
    ((¬∃ records, refreshes records) → after.freshUser = handler.freshUser)

def PushFollows (node : Bytes → Bytes) : Prop :=
  let refreshes := Refreshes client (storedDBConf node handler.freshPrefix)
    DyeingPushUserTypePlugin.sql DyeingPushUserTypePlugin.columns
  (∀ records, refreshes records → ∃ plugin, after.pushUser = some plugin ∧ plugin.Holds records) ∧
    ((¬∃ records, refreshes records) → after.pushUser = handler.pushUser)

section Halves

variable {client time} {α : Type} {columns : List Bytes} {update : Nat → Row → α → α}
  {setRow : Nat → Row → α → Outcome Exception (Bool × α)} {sql : Bytes}

include holds

theorem publish_of_harmless (setsRow : SetsRow columns update setRow)
    (h : Harmless client (storedDBConf node handler.freshPrefix) sql columns) (plugin : α)
    (publish : α → ABDyeingHandler) (n : Nat) :
    let refreshes := Refreshes client (storedDBConf node handler.freshPrefix) sql columns
    let flushed := handler.publishIf
      (refresh store client handler.freshPrefix sql setRow plugin plugin n) publish
    (¬∃ records, refreshes records) ∧ flushed = (handler, .ok (n + 6)) ∨
      ∃ records, refreshes records ∧
        flushed = (publish (updateRows update 0 records plugin), .ok (n + 6)) := by
  intro refreshes flushed
  rcases refresh_of_harmless setsRow holds h plugin plugin n with
    ⟨hnone, hresult⟩ | ⟨records, hrecords, hresult⟩
  · exact .inl ⟨hnone, by simp only [flushed, hresult, publishIf_ok]; rfl⟩
  · exact .inr ⟨records, hrecords, by simp only [flushed, hresult, publishIf_ok]; rfl⟩

theorem publish_of_not_harmless (setsRow : SetsRow columns update setRow)
    (h : ¬Harmless client (storedDBConf node handler.freshPrefix) sql columns) (plugin : α)
    (publish : α → ABDyeingHandler) (n : Nat) :
    ∃ e, handler.publishIf (refresh store client handler.freshPrefix sql setRow plugin plugin n)
      publish = (handler, .error e) := by
  obtain ⟨m, herror⟩ := refresh_of_not_harmless setsRow holds h plugin plugin n
  exact ⟨_, by rw [herror, publishIf_error]⟩

/-- A refresh leaves the handler alone, or publishes the complete result of its query. -/
theorem publish_cases (setsRow : SetsRow columns update setRow) (client : MysqlClient)
    (sql : Bytes) (plugin : α) (publish : α → ABDyeingHandler) (n : Nat) :
    let flushed := handler.publishIf
      (refresh store client handler.freshPrefix sql setRow plugin plugin n) publish
    flushed.1 = handler ∨
      ∃ records, Refreshes client (storedDBConf node handler.freshPrefix) sql columns records ∧
        flushed.1 = publish (updateRows update 0 records plugin) := by
  intro flushed
  by_cases h : Harmless client (storedDBConf node handler.freshPrefix) sql columns
  · rcases publish_of_harmless holds handler setsRow h plugin publish n with
      ⟨-, hflush⟩ | ⟨records, hrecords, hflush⟩
    · exact .inl (congrArg Prod.fst hflush)
    · exact .inr ⟨records, hrecords, congrArg Prod.fst hflush⟩
  · obtain ⟨e, hflush⟩ := publish_of_not_harmless holds handler setsRow h plugin publish n
    exact .inl (congrArg Prod.fst hflush)

theorem flushFreshUser_cases (client : MysqlClient) (time : Int64) (clock : Nat → UInt64)
    (n : Nat) :
    (handler.flushFreshUser store client time clock n).1 = handler ∨
      ∃ records plugin, Delivers client (storedDBConf node handler.freshPrefix)
        (DyeingFreshUserPlugin.sql time) records ∧ plugin.Holds records ∧
        (handler.flushFreshUser store client time clock n).1 =
          { handler with freshUser := some plugin } := by
  rcases publish_cases holds handler (DyeingFreshUserPlugin.setsRow clock) client
    (DyeingFreshUserPlugin.sql time) (.new handler.freshPrefix)
    (fun plugin => { handler with freshUser := some plugin }) n with
    unchanged | ⟨records, ⟨hdelivers, -, hcolumns⟩, published⟩
  · exact .inl unchanged
  · exact .inr ⟨records, _, hdelivers, DyeingFreshUserPlugin.holds_updateRows hcolumns _,
      published⟩

theorem flushPushUser_cases (client : MysqlClient) (n : Nat) :
    (handler.flushPushUser store client n).1 = handler ∨
      ∃ records plugin, Delivers client (storedDBConf node handler.freshPrefix)
        DyeingPushUserTypePlugin.sql records ∧
        plugin = updateRows DyeingPushUserTypePlugin.update 0 records (.new handler.freshPrefix) ∧
        (handler.flushPushUser store client n).1 = { handler with pushUser := some plugin } := by
  rcases publish_cases holds handler DyeingPushUserTypePlugin.setsRow client
    DyeingPushUserTypePlugin.sql (.new handler.freshPrefix)
    (fun plugin => { handler with pushUser := some plugin }) n with
    unchanged | ⟨records, ⟨hdelivers, -, -⟩, published⟩
  · exact .inl unchanged
  · exact .inr ⟨records, _, hdelivers, rfl, published⟩

theorem flushFreshUser_of_harmless (h : handler.FreshHarmless client time node) (n : Nat) :
    ∃ freshUser, handler.flushFreshUser store client time clock n =
        ({ handler with freshUser := freshUser }, .ok (n + 6)) ∧
      handler.FreshFollows { handler with freshUser := freshUser } client time node := by
  rcases publish_of_harmless holds handler (DyeingFreshUserPlugin.setsRow clock) h
    (.new handler.freshPrefix) (fun plugin => { handler with freshUser := some plugin }) n with
    ⟨hnone, hflush⟩ | ⟨records, hrecords, hflush⟩
  · exact ⟨handler.freshUser, hflush, fun records hrecords => absurd ⟨records, hrecords⟩ hnone,
      fun _ => rfl⟩
  · refine ⟨_, hflush, fun others hothers => ⟨_, rfl, ?_⟩,
      fun hnone => absurd ⟨records, hrecords⟩ hnone⟩
    rw [← hrecords.1.unique hothers.1]
    exact DyeingFreshUserPlugin.holds_updateRows hrecords.2.2 _

theorem flushPushUser_of_harmless (h : handler.PushHarmless client node) (n : Nat) :
    ∃ pushUser, handler.flushPushUser store client n =
        ({ handler with pushUser := pushUser }, .ok (n + 6)) ∧
      handler.PushFollows { handler with pushUser := pushUser } client node := by
  rcases publish_of_harmless holds handler DyeingPushUserTypePlugin.setsRow h
    (.new handler.freshPrefix) (fun plugin => { handler with pushUser := some plugin }) n with
    ⟨hnone, hflush⟩ | ⟨records, hrecords, hflush⟩
  · exact ⟨handler.pushUser, hflush, fun records hrecords => absurd ⟨records, hrecords⟩ hnone,
      fun _ => rfl⟩
  · refine ⟨_, hflush, fun others hothers => ⟨_, rfl, ?_⟩,
      fun hnone => absurd ⟨records, hrecords⟩ hnone⟩
    rw [← hrecords.1.unique hothers.1]
    exact DyeingPushUserTypePlugin.holds_updateRows _ _

theorem flushFreshUser_of_not_harmless (h : ¬handler.FreshHarmless client time node) (n : Nat) :
    ∃ e, handler.flushFreshUser store client time clock n = (handler, .error e) :=
  publish_of_not_harmless holds handler (DyeingFreshUserPlugin.setsRow clock) h _ _ n

theorem flushPushUser_of_not_harmless (h : ¬handler.PushHarmless client node) (n : Nat) :
    ∃ e, handler.flushPushUser store client n = (handler, .error e) :=
  publish_of_not_harmless holds handler DyeingPushUserTypePlugin.setsRow h _ _ n

end Halves

include holds in
/-- The flush returns, with both plugins as their own queries say, if and only if both refreshes are
harmless. -/
theorem flushFreshUserPolicy_follows_iff (freshClient pushClient : MysqlClient) (n : Nat) :
    ((∃ m, (handler.flushFreshUserPolicy store freshClient pushClient time clock n).2 = .ok m) ∧
      handler.FreshFollows
        (handler.flushFreshUserPolicy store freshClient pushClient time clock n).1
        freshClient time node ∧
      handler.PushFollows
        (handler.flushFreshUserPolicy store freshClient pushClient time clock n).1
        pushClient node) ↔
    handler.FreshHarmless freshClient time node ∧ handler.PushHarmless pushClient node := by
  by_cases hfresh : handler.FreshHarmless freshClient time node
  · obtain ⟨freshUser, hflush, hfollows⟩ :=
      flushFreshUser_of_harmless holds handler clock hfresh n
    by_cases hpush : handler.PushHarmless pushClient node
    · obtain ⟨pushUser, hflush', hfollows'⟩ := flushPushUser_of_harmless holds
        { handler with freshUser := freshUser } hpush (n + 6)
      rw [flushFreshUserPolicy, hflush, Flushed.andThen_ok, hflush']
      exact iff_of_true ⟨⟨_, rfl⟩, hfollows, hfollows'⟩ ⟨hfresh, hpush⟩
    · obtain ⟨e, herror⟩ := flushPushUser_of_not_harmless holds
        { handler with freshUser := freshUser } hpush (n + 6)
      rw [flushFreshUserPolicy, hflush, Flushed.andThen_ok, herror]
      refine iff_of_false (fun h => ?_) fun h => hpush h.2
      obtain ⟨⟨m', hm'⟩, -⟩ := h
      cases hm'
  · obtain ⟨e, herror⟩ := flushFreshUser_of_not_harmless holds handler clock hfresh n
    rw [flushFreshUserPolicy, herror, Flushed.andThen_error]
    refine iff_of_false (fun h => ?_) fun h => hfresh h.1
    obtain ⟨⟨m, hm⟩, -⟩ := h
    cases hm

def answering (up : Bool) (result : ResultSet) : MysqlClient :=
  ⟨fun _ _ => false, fun _ _ => up, fun _ _ => none, fun _ => some result, fun _ => str "down"⟩

def freshResult : ResultSet := ⟨[str "uid"], [[some (str "u")]], by decide⟩

def pushResult : ResultSet :=
  ⟨[str "Timestamp", str "product_id", str "uid", str "push_user_type"],
    [[some (str "7"), some (str "noticias"), some (str "u"), some (str "active")]], by decide⟩

theorem flushFreshUserPolicy_follows_iff_example :
    let flushed := (blank []).flushFreshUserPolicy (steady fun _ => []) (answering true freshResult)
      (answering true pushResult) 0 (fun _ => 9) 0
    (∃ m, flushed.2 = .ok m) ∧
      (blank []).FreshFollows flushed.1 (answering true freshResult) 0 (fun _ => []) ∧
      (blank []).PushFollows flushed.1 (answering true pushResult) (fun _ => []) := by
  refine (flushFreshUserPolicy_follows_iff (steady_holds fun _ => []) (blank []) 0 (fun _ => 9)
    (answering true freshResult) (answering true pushResult) 0).mpr ⟨⟨⟨_, rfl⟩, ?_⟩, ⟨_, rfl⟩, ?_⟩
  · intro records hrecords
    have hdelivers : Delivers (answering true freshResult)
        (storedDBConf (fun _ => []) (blank []).freshPrefix) (DyeingFreshUserPlugin.sql 0)
        (freshResult.rows.map (toRow freshResult.fields)) := ⟨_, rfl, rfl⟩
    rw [hrecords.unique hdelivers]
    decide
  · intro records hrecords
    have hdelivers : Delivers (answering true pushResult)
        (storedDBConf (fun _ => []) (blank []).freshPrefix) DyeingPushUserTypePlugin.sql
        (pushResult.rows.map (toRow pushResult.fields)) := ⟨_, rfl, rfl⟩
    rw [hrecords.unique hdelivers]
    decide

/-- The first connection fails: the exception leaves the flush, and the user types, which the second
query would deliver, are not refreshed. -/
theorem flushFreshUserPolicy_escapes :
    let flushed := (blank []).flushFreshUserPolicy (steady fun _ => [])
      (answering false freshResult) (answering true pushResult) 0 (fun _ => 9) 0
    ¬((∃ m, flushed.2 = .ok m) ∧
      (blank []).FreshFollows flushed.1 (answering false freshResult) 0 (fun _ => []) ∧
      (blank []).PushFollows flushed.1 (answering true pushResult) (fun _ => [])) := by
  intro flushed ⟨⟨m, hm⟩, _⟩
  cases hm

end ABDyeingHandler

end ABDyeing
