import Mathlib.Logic.Function.Basic
import Mathlib.Logic.Relation
import Ipvshttpd.Resumption.Program

/-!
# Interleaved programs and locks

Any number of threads, each with its own program, share a state. A step of the system is one call of
one thread; which thread makes it is arbitrary. The configuration remembers all steps made so far
with the shared state before and after each of them, so that statements about schedules (the order
in which a lock was taken, what a thread did so far) are statements about this history.

A call may take or release a lock (`LockOps`). A lock has at most one owner, and taking it blocks
while it has one (`LockOps.Respects`).
-/

namespace Resumption

variable {ι E : Type} {R : E → Type} {X α S L T : Type}

/-- The meaning of calls in a shared state: `sem i e s r s'` if the call `e` of thread `i` in the
    state `s` may be answered by `r` and lead to the state `s'`. A call without such an answer
    blocks. -/
abbrev Sem (ι E : Type) (R : E → Type) (S : Type) := ι → (e : E) → S → R e → S → Prop

/-- One step of the history. -/
structure Entry (ι E : Type) (R : E → Type) (S : Type) where
  /-- The thread that has made the step. -/
  tid : ι
  /-- The call with its answer. -/
  ev : Event E R
  /-- The shared state before it. -/
  pre : S
  /-- The shared state after it. -/
  post : S

/-- A system of threads. -/
structure Config (ι E : Type) (R : E → Type) (X α S : Type) where
  /-- The shared state. -/
  shared : S
  /-- What every thread still has to do. -/
  progs : ι → Prog E R X α
  /-- The steps made so far, the first one first. -/
  hist : List (Entry ι E R S)

/-- A system that has made no step. -/
def Config.init (s : S) (progs : ι → Prog E R X α) : Config ι E R X α S := ⟨s, progs, []⟩

section Steps

variable [DecidableEq ι]

/-- The system after thread `i` has made the call `e` with the answer `r`, which leads to the shared
    state `s'` and leaves the program `p'` to do. -/
def Config.advance (c : Config ι E R X α S) (i : ι) (e : E) (r : R e) (s' : S)
    (p' : Prog E R X α) : Config ι E R X α S :=
  ⟨s', Function.update c.progs i p', c.hist ++ [⟨i, ⟨e, r⟩, c.shared, s'⟩]⟩

/-- One call of one thread. -/
inductive Step (sem : Sem ι E R S) : Config ι E R X α S → Config ι E R X α S → Prop where
  /-- Thread `i` makes its next call, and the shared state answers it. -/
  | call {c : Config ι E R X α S} (i : ι) (e : E) (k : R e → Prog E R X α) (r : R e) (s' : S)
      (hp : c.progs i = .call e k) (hs : sem i e c.shared r s') :
      Step sem c (c.advance i e r s' (k r))

/-- The systems that some schedule leads to. -/
abbrev Reach (sem : Sem ι E R S) : Config ι E R X α S → Config ι E R X α S → Prop :=
  Relation.ReflTransGen (Step sem)

/-- The system after the next call of thread `i`, if there is one and `answer` has an answer to it. -/
def Config.move (answer : ι → (e : E) → S → Option (R e × S)) (c : Config ι E R X α S) (i : ι) :
    Option (Config ι E R X α S) :=
  match c.progs i with
  | .call e k => (answer i e c.shared).map fun (r, s') => c.advance i e r s' (k r)
  | _ => none

/-- Lets the threads of a schedule make one call each, in this order. -/
def Config.play (answer : ι → (e : E) → S → Option (R e × S)) :
    List ι → Config ι E R X α S → Option (Config ι E R X α S)
  | [], c => some c
  | i :: schedule, c => (c.move answer i).bind (Config.play answer schedule)

/-- What thread `i` has done so far. -/
def localTrace (i : ι) (hist : List (Entry ι E R S)) : List (Event E R) :=
  (hist.filter fun en => en.tid = i).map Entry.ev

end Steps

/-! ## Locks -/

/-- The calls that take and release the locks `L`. -/
structure LockOps (E L : Type) where
  /-- The lock that a call takes. -/
  acquires : E → Option L
  /-- The lock that a call releases. -/
  releases : E → Option L

section Locks

variable [DecidableEq L]

/-- The calls mean what they should for the locks whose owners `owner` reads off the shared state:
    only a free lock can be taken, and no other call changes an owner. -/
structure LockOps.Respects (ops : LockOps E L) (sem : Sem ι E R S) (owner : S → L → Option ι) :
    Prop where
  /-- A lock that is taken was free. -/
  acquire : ∀ {i e l s r s'}, ops.acquires e = some l → sem i e s r s' →
    owner s l = none ∧ owner s' = Function.update (owner s) l (some i)
  /-- A lock that is released is free afterwards. -/
  release : ∀ {i e l s r s'}, ops.acquires e = none → ops.releases e = some l → sem i e s r s' →
    owner s' = Function.update (owner s) l none
  /-- All other calls leave the owners as they are. -/
  other : ∀ {i e s r s'}, ops.acquires e = none → ops.releases e = none → sem i e s r s' →
    owner s' = owner s

/-- The monitor of a thread that never takes a lock twice and never releases a lock it does not
    hold. The ghost state tells which locks the thread holds. -/
def LockOps.monitor (ops : LockOps E L) : Monitor E R (L → Bool) where
  allows held e :=
    (∀ l, ops.acquires e = some l → held l = false) ∧ ∀ l, ops.releases e = some l → held l = true
  next held e _ :=
    match ops.acquires e, ops.releases e with
    | some l, _ => Function.update held l true
    | none, some l => Function.update held l false
    | none, none => held

/-- The locks held after a run of one thread that held none before it. -/
def LockOps.held (ops : LockOps E L) (tr : List (Event E R)) : L → Bool :=
  ops.monitor.after (fun _ => false) tr

/-- The threads in the order in which they have taken the lock `l`. -/
def LockOps.order (ops : LockOps E L) (l : L) (hist : List (Entry ι E R S)) : List ι :=
  (hist.filter fun en => ops.acquires en.ev.1 = some l).map Entry.tid

end Locks

/-- The effect on a part `T` of the shared state of a run of one thread, where `delta e r` is the
    effect of the call `e` with the answer `r`. -/
def effect (delta : (e : E) → R e → T → T) (tr : List (Event E R)) (t : T) : T :=
  tr.foldl (fun t ev => delta ev.1 ev.2 t) t

end Resumption
