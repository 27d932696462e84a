import ABDyeing.Logic
import ABDyeing.Online.Load

/-! `ABDyeingHandler`: its state and the two flushes that its threads run.  A flush builds a plugin,
loads it, and publishes it where the load says so; an exception ends the flush and leaves what was
published until then. -/

namespace ABDyeing

open Lib

/-- `ABDyeingHandler`, with what it has published; `logics` is by thread. -/
structure ABDyeingHandler extends Published where
  types : List Bytes
  whitePrefix : Bytes
  onlinePrefix : Bytes
  freshPrefix : Bytes
  logics : Nat → Option DyeingLogic

/-- The handler as a flush leaves it, and the reads made so far or what was thrown. -/
abbrev Flushed := ABDyeingHandler × Outcome Exception Nat

def Flushed.andThen (flushed : Flushed) (next : ABDyeingHandler → Nat → Flushed) : Flushed :=
  match flushed with
  | (handler, .error e) => (handler, .error e)
  | (handler, .ok n) => next handler n

namespace ABDyeingHandler

def getLogic (handler : ABDyeingHandler) (thread : Nat) : Option DyeingLogic :=
  handler.logics thread

/-- `if (plugin->load()) { published = plugin; }`. -/
def publishIf {α : Type} (handler : ABDyeingHandler) (loaded : Outcome Exception ((Bool × α) × Nat))
    (publish : α → ABDyeingHandler) : Flushed :=
  match loaded with
  | .error e => (handler, .error e)
  | .ok ((true, plugin), n) => (publish plugin, .ok n)
  | .ok ((false, _), n) => (handler, .ok n)

def flushWhiteList (store : Store) (handler : ABDyeingHandler) (n : Nat) : Flushed :=
  let version := DyeingWhiteListPlugin.new handler.whitePrefix
  handler.publishIf (version.loadConfig store handler.types n)
    fun version => { handler with whiteList := some version }

def flushOnline (store : Store) (handler : ABDyeingHandler) (n : Nat) : Flushed :=
  let onlinePlugin := DyeingOnlinePlugin.new handler.onlinePrefix
  handler.publishIf (onlinePlugin.loadConfig store handler.types n)
    fun onlinePlugin => { handler with onlinePlugin := some onlinePlugin }

def flushPolicy (store : Store) (handler : ABDyeingHandler) (n : Nat) : Flushed :=
  (handler.flushWhiteList store n).andThen (flushOnline store)

def flushFreshUser (store : Store) (client : MysqlClient) (time : Int64) (clock : Nat → UInt64)
    (handler : ABDyeingHandler) (n : Nat) : Flushed :=
  let freshUserPlugin := DyeingFreshUserPlugin.new handler.freshPrefix
  handler.publishIf (freshUserPlugin.flushFreshUser store client time clock n)
    fun freshUserPlugin => { handler with freshUser := some freshUserPlugin }

def flushPushUser (store : Store) (client : MysqlClient) (handler : ABDyeingHandler) (n : Nat) :
    Flushed :=
  let pushUserPlugin := DyeingPushUserTypePlugin.new handler.freshPrefix
  handler.publishIf (pushUserPlugin.flushPushUserType store client n)
    fun pushUserPlugin => { handler with pushUser := some pushUserPlugin }

def flushFreshUserPolicy (store : Store) (freshClient pushClient : MysqlClient) (time : Int64)
    (clock : Nat → UInt64) (handler : ABDyeingHandler) (n : Nat) : Flushed :=
  (handler.flushFreshUser store freshClient time clock n).andThen
    (flushPushUser store pushClient)

def blank (types : List Bytes) : ABDyeingHandler :=
  ⟨⟨none, some (.new (str "/o")), none, none, ∅⟩, types, str "/w", str "/o", str "/f",
    fun _ => none⟩

@[simp] theorem publishIf_error {α : Type} (handler : ABDyeingHandler) (e : Abort Exception)
    (publish : α → ABDyeingHandler) :
    handler.publishIf (.error e) publish = (handler, .error e) := rfl

@[simp] theorem publishIf_ok {α : Type} (handler : ABDyeingHandler) (loaded : Bool × α) (n : Nat)
    (publish : α → ABDyeingHandler) :
    handler.publishIf (.ok (loaded, n)) publish =
      (if loaded.1 then publish loaded.2 else handler, .ok n) := by
  obtain ⟨_ | _, plugin⟩ := loaded <;> rfl

end ABDyeingHandler

@[simp] theorem Flushed.andThen_ok (handler : ABDyeingHandler) (n : Nat)
    (next : ABDyeingHandler → Nat → Flushed) :
    Flushed.andThen (handler, .ok n) next = next handler n := rfl

@[simp] theorem Flushed.andThen_error (handler : ABDyeingHandler) (e : Abort Exception)
    (next : ABDyeingHandler → Nat → Flushed) :
    Flushed.andThen (handler, .error e) next = (handler, .error e) := rfl

end ABDyeing
