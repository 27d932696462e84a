import ABDyeing.Lib.Bytes
import ABDyeing.Lib.Outcome

/-! The exceptions of the utility library, and `INV_QConfig`, through which the plugins read the
configuration store.  A load makes its reads one after the other, so what a read answers depends on
its number as well as on its path. -/

namespace ABDyeing

open Lib

inductive Exception
  | mysql (buffer : Bytes)
  | qconfig (buffer : Bytes) (err : Int)
  | threadRW (buffer : Bytes)
  deriving DecidableEq

/-- The return code of `qconf_get_conf`, with the value it writes. -/
inductive QConfRet
  | ok (value : Bytes)
  | errNotFound
  | errNullValue
  | err (ret : Int)

/-- The configuration store: the answer to the `n`-th read, at a path. -/
abbrev Store := Nat → Bytes → QConfRet

abbrev Load := StateT Nat (Outcome Exception)

def qconfGet (store : Store) (path defaultval : Bytes) : Load Bytes := fun n =>
  match store n path with
  | .ok val => .ok (val, n + 1)
  | .errNotFound => .ok (defaultval, n + 1)
  | .errNullValue => .ok (defaultval, n + 1)
  | .err ret => .error (.exception (.qconfig (str "get::qconf_get_conf path:" ++ path) ret))

/-- `node` is what the store holds during a load, the empty string where it holds nothing, and no
read fails. -/
def Store.Holds (store : Store) (node : Bytes → Bytes) : Prop :=
  ∀ n path, qconfGet store path [] n = .ok (node path, n + 1)

/-- The read with the number `n` succeeds, at whatever path it is made. -/
def Store.Reads (store : Store) (node : Bytes → Bytes) (n : Nat) : Prop :=
  ∀ path, qconfGet store path [] n = .ok (node path, n + 1)

/-- The reads before the one with the number `k` find `node`, and that one fails. -/
structure Store.FailsAt (store : Store) (node : Bytes → Bytes) (k : Nat) : Prop where
  before : ∀ i < k, store.Reads node i
  fails : ∀ path, ∃ ret, store k path = .err ret

theorem Store.FailsAt.throws {store : Store} {node : Bytes → Bytes} {k : Nat}
    (h : store.FailsAt node k) (path : Bytes) :
    ∃ e, qconfGet store path [] k = .error (.exception e) := by
  obtain ⟨ret, hret⟩ := h.fails path
  exact ⟨.qconfig (str "get::qconf_get_conf path:" ++ path) ret, by simp only [qconfGet, hret]⟩

def steady (node : Bytes → Bytes) : Store := fun _ path => .ok (node path)

theorem steady_holds (node : Bytes → Bytes) : (steady node).Holds node := fun _ _ => rfl

end ABDyeing
