import ABDyeing.FreshUser
import ABDyeing.Online.Policy
import ABDyeing.PushUser
import ABDyeing.WhiteList

/-! `DyeingLogic::onDyeing`, which answers one business type of a request: from the white list, or
else from the online policies of an app name that depends on what kind of user it is. -/

namespace ABDyeing

open Lib

structure Published where
  whiteList : Option DyeingWhiteListPlugin
  onlinePlugin : Option DyeingOnlinePlugin
  freshUser : Option DyeingFreshUserPlugin
  pushUser : Option DyeingPushUserTypePlugin
  kq : UnorderedMap Bytes UInt64

inductive Status
  | rcStatusOk
  | rcServerError
  | rcServerFault
  | rcUnknowError
  deriving DecidableEq

structure ABDyeingEntry where
  type : Bytes
  configId : Bytes
  deriving DecidableEq

/-- `ABDyeingReply`; `isset` is `__isset._entries`. -/
structure ABDyeingReply where
  status : Status
  isset : Bool
  entries : List ABDyeingEntry
  deriving DecidableEq

def ABDyeingReply.new : ABDyeingReply := ⟨.rcStatusOk, false, []⟩

def ABDyeingReply.pushBack (reply : ABDyeingReply) (type configId : Bytes) : ABDyeingReply :=
  { reply with isset := true, entries := reply.entries ++ [⟨type, configId⟩] }

/-- The places where a lookup may throw. -/
inductive Lookup
  | whiteList
  | pushUser
  | freshUser
  | online
  deriving DecidableEq

abbrev Faults := Lookup → Option Exception

def Faults.at {α : Type} (faults : Faults) (lookup : Lookup) (a : Outcome Exception α) :
    Outcome Exception α :=
  match faults lookup with
  | some e => .error (.exception e)
  | none => a

/-- `DyeingLogic`, less its unused `_qconf`; the suffix is `fresh` unless one is configured. -/
structure DyeingLogic where
  freshProductSuffix : Bytes

namespace DyeingLogic

def handleWhiteList (whiteList : Option DyeingWhiteListPlugin) (uid type : Bytes) : Option Bytes :=
  match whiteList with
  | none => none
  | some plugin => plugin.get uid type

def handleOnlineHash (city : CityHash) (onlinePlugin : Option DyeingOnlinePlugin)
    (uid app appVer appLan type : Bytes) : Outcome Exception (Option Bytes) :=
  match onlinePlugin with
  | none => .ok none
  | some plugin => plugin.get city uid app appVer appLan type

/-- `handleFreshUser`: 1 for a user in the table, 2 for one in the Kafka queue only, else 0. -/
def handleFreshUser (freshUser : Option DyeingFreshUserPlugin) (kq : UnorderedMap Bytes UInt64)
    (uid : Bytes) : Nat :=
  let isNew := match freshUser with
    | none => 0
    | some plugin => if plugin.get uid then 1 else 0
  if isNew = 0 then if uid ∈ kq then 2 else isNew else isNew

def handlePushUser (pushUser : Option DyeingPushUserTypePlugin) (uid app : Bytes) : Option Bytes :=
  match pushUser with
  | none => none
  | some plugin => plugin.get uid app

def dyeingApp (logic : DyeingLogic) (published : Published) (faults : Faults)
    (uid app type : Bytes) : Outcome Exception Bytes :=
  let fresh := faults.at .freshUser (.ok (handleFreshUser published.freshUser published.kq uid))
  if type = str "biz" ∧ app = str "noticias" then do
    match ← faults.at .pushUser (.ok (handlePushUser published.pushUser uid app)) with
    | none => return if (← fresh) = 2 then app ++ str "_new" else app ++ str "_recurring"
    | some userType => return app ++ str "_" ++ userType
  else do
    return if (← fresh) ≠ 0 then app ++ str "_" ++ logic.freshProductSuffix else app

def onDyeing (logic : DyeingLogic) (city : CityHash) (published : Published) (faults : Faults)
    (uid app appVer appLan type : Bytes) (reply : ABDyeingReply) :
    Outcome Exception (Bool × ABDyeingReply) := do
  match ← faults.at .whiteList (.ok (handleWhiteList published.whiteList uid type)) with
  | some configId => return (true, reply.pushBack type configId)
  | none =>
    let dyeingApp ← logic.dyeingApp published faults uid app type
    match ← faults.at .online
        (handleOnlineHash city published.onlinePlugin uid dyeingApp appVer appLan type) with
    | some configId => return (true, reply.pushBack type configId)
    | none => return (false, reply)

end DyeingLogic

theorem Faults.at_of_none {α : Type} {faults : Faults} {lookup : Lookup} (h : faults lookup = none)
    (a : Outcome Exception α) : faults.at lookup a = a := by
  rw [Faults.at, h]

end ABDyeing
