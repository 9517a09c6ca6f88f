import Ipvshttpd.Resumption.Stateful

/-!
# Handlers

A program over the calls `E` can be carried out by programs over other calls `F`, one for each call
of `E`: these are its *handlers*. The result is a program over `F` with the variables of the handlers.

Programs over two kinds of calls are programs over their sum.
-/

namespace Resumption

variable {E F : Type} {R : E → Type} {R' : F → Type} {X Y V α Q Q' : Type}

/-- The program with every call carried out by its handler; `g` renames its exceptions. -/
def Prog.handle (g : X → Y) (h : (e : E) → Stateful V F R' Y (R e)) :
    Prog E R X α → Stateful V F R' Y α
  | .ret a => pure a
  | .raise x => Stateful.throw (g x)
  | .call e k => h e >>= fun r => (k r).handle g h

/-- The history of an object with the states `K` on which each call is one step of `sem`. -/
inductive Atomic {K : Type} (sem : (e : E) → K → R e → K → Prop) : K → List (Event E R) → K → Prop where
  /-- No call has been made. -/
  | nil (k : K) : Atomic sem k [] k
  /-- One call, and then the others. -/
  | step {k k' k'' : K} {e : E} {r : R e} {tr : List (Event E R)} (h : sem e k r k')
      (hrest : Atomic sem k' tr k'') : Atomic sem k (⟨e, r⟩ :: tr) k''

/-! ## Two kinds of calls -/

/-- The answers to calls of both kinds. -/
abbrev SumAnswer (R : E → Type) (R' : F → Type) : E ⊕ F → Type
  | .inl e => R e
  | .inr f => R' f

/-- A program over the second kind of calls, as one over both; `g` renames its exceptions. -/
def Prog.inr (g : X → Y) : Prog F R' X α → Prog (E ⊕ F) (SumAnswer R R') Y α
  | .ret a => .ret a
  | .raise x => .raise (g x)
  | .call f k => .call (.inr f) fun r => (k r).inr g

/-- The same, for programs with variables. -/
def Stateful.inr (g : X → Y) (p : Stateful V F R' X α) :
    Stateful V (E ⊕ F) (SumAnswer R R') Y α :=
  fun v => (p v).inr g

/-- The monitor that lets two monitors watch one kind of calls each. -/
def Monitor.sum (M : Monitor E R Q) (N : Monitor F R' Q') :
    Monitor (E ⊕ F) (SumAnswer R R') (Q × Q') where
  allows q
    | .inl e => M.allows q.1 e
    | .inr f => N.allows q.2 f
  next q e r :=
    match e, r with
    | .inl e, r => (M.next q.1 e r, q.2)
    | .inr f, r => (q.1, N.next q.2 f r)

/-- The monitor that lets two monitors watch the same calls. -/
def Monitor.both (M : Monitor E R Q) (N : Monitor E R Q') : Monitor E R (Q × Q') where
  allows q e := M.allows q.1 e ∧ N.allows q.2 e
  next q e r := (M.next q.1 e r, N.next q.2 e r)

end Resumption
