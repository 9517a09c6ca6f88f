import Ipvshttpd.Concurrency

/-!
# The protocol of a request handler

The order in which a handler makes its calls, as a monitor. Its ghost state says which mutex the
handler holds, whether it is inside `set_weight`, what its update has returned and what it has
replied.
-/

namespace Ipvshttpd

open CLib Resumption

/-- How far a handler has come. -/
structure Progress where
  /-- The mutex that it holds. -/
  holding : Option Mutex
  /-- It has taken `ipvs_mutex`. -/
  taken : Bool
  /-- It is inside `set_weight`. -/
  inside : Bool
  /-- The update that it has made, and what that has returned. -/
  update : Option (Service × Dest × Int)
  /-- What it has replied. -/
  summary : Summary

namespace Progress

/-- A handler that has not begun. -/
def init : Progress := ⟨none, false, false, none, .init⟩

/-- The update has returned 0. -/
def Succeeded (q : Progress) : Prop := ∃ svc dest, q.update = some (svc, dest, 0)

end Progress

/-- The text that goes with a status. -/
def Status.Fits (status : Status) (text : Str) : Prop :=
  (status = .ok ∧ text = okText) ∨ (status ≠ .ok ∧ ∃ message, text = errorText message)

/-- The protocol of a handler that may update a weight to `weight` only. Every mutex is taken when
    none is held, `ipvs_mutex` once, and not released before a reply; the resolver and the kernel are
    called inside `set_weight` only, the kernel once; and the reply comes after that, once, with the
    status and the text that the result of the update demands. -/
def protocol (weight : Option Int) : Monitor Call Call.Answer Progress where
  allows q
    | .lock m => q.holding = none ∧ (m = .ipvs → q.taken = false)
    | .unlock m => q.holding = some m ∧ q.inside = false ∧ (m = .ipvs → q.summary.replies ≠ [])
    | .log _ => True
    | .setStatus status => q.inside = false ∧ q.summary.replies = [] ∧ (status = .ok ↔ q.Succeeded)
    | .setHeaders headers => headers = responseHeaders
    | .write text => q.summary.replies = [] ∧ q.summary.headers = responseHeaders ∧
      ∃ status, q.summary.status = some status ∧ status.Fits text
    | .enterSetWeight _ _ _ =>
      q.holding = some .ipvs ∧ q.update = none ∧ q.summary.status = none ∧ q.summary.replies = []
    | .leaveSetWeight _ => True
    | .gethostbyname _ | .getservbyname _ _ => q.inside = true
    | .updateDest _ dest => q.inside = true ∧ q.update = none ∧ some dest.weight = weight
  next q e r :=
    let q := { q with summary := q.summary.next e }
    match e, r with
    | .lock m, _ => { q with holding := some m, taken := q.taken || m = .ipvs }
    | .unlock _, _ => { q with holding := none }
    | .enterSetWeight _ _ _, _ => { q with inside := true }
    | .leaveSetWeight _, _ => { q with inside := false }
    | .updateDest svc dest, r => { q with update := some (svc, dest, r) }
    | _, _ => q

end Ipvshttpd
