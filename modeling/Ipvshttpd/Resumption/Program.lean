import Mathlib.Data.List.Basic

/-!
# Programs with calls

A program is a tree: it has returned, it has ended with an escaping exception, or it makes a call to
its environment and continues with the answer. One such tree is the meaning of a piece of effectful
code whatever the environment answers. The same tree is run alone against an environment
(`Prog.run`), stepped call by call (`Prog.Steps`), and interleaved with other trees
(`Resumption.Interleave`).

`Prog.wp` is the weakest precondition of a program for a *monitor*: a ghost state that is updated at
every call and that may forbid calls. With the monitor `Monitor.history` the ghost state is the list
of all calls made so far, and `wp` speaks about whole runs.
-/

namespace Resumption

/-- A program over the calls `E`, where the call `e` is answered by an element of `R e`, with the
    exceptions `X` and the result type `α`. -/
inductive Prog (E : Type) (R : E → Type) (X : Type) (α : Type) : Type where
  /-- The program has returned. -/
  | ret (a : α)
  /-- An exception has escaped. -/
  | raise (x : X)
  /-- The program makes a call and goes on with the answer. -/
  | call (e : E) (k : R e → Prog E R X α)

/-- A call with its answer. -/
abbrev Event (E : Type) (R : E → Type) := (e : E) × R e

variable {E : Type} {R : E → Type} {X α β Q S : Type}

namespace Prog

/-- Sequential composition: an exception of the first program skips the second one. -/
def bind : Prog E R X α → (α → Prog E R X β) → Prog E R X β
  | .ret a, f => f a
  | .raise x, _ => .raise x
  | .call e k, f => .call e fun r => (k r).bind f

instance : Monad (Prog E R X) where
  pure := .ret
  bind := Prog.bind

/-- A program that makes one call. -/
def perform (e : E) : Prog E R X (R e) := .call e .ret

/-- A fallible pure computation inside a program. -/
def ofExcept : Except X α → Prog E R X α
  | .ok a => .ret a
  | .error x => .raise x

/-- The program has returned or an exception has escaped. -/
def Ended : Prog E R X α → Prop
  | .call _ _ => False
  | _ => True

/-- `Steps p tr q`: after the calls of `tr`, answered as `tr` says, the program `p` has become `q`. -/
inductive Steps : Prog E R X α → List (Event E R) → Prog E R X α → Prop where
  /-- No call has been made. -/
  | refl (p : Prog E R X α) : Steps p [] p
  /-- One call, and then the others. -/
  | call (e : E) (k : R e → Prog E R X α) (r : R e) {tr : List (Event E R)} {q : Prog E R X α}
      (h : Steps (k r) tr q) : Steps (.call e k) (⟨e, r⟩ :: tr) q

end Prog

/-- An environment with the state `S`: the answer to every call and the state after it. -/
abbrev Env (E : Type) (R : E → Type) (S : Type) := (e : E) → S → R e × S

/-- What a run of a program against an environment leaves behind. -/
structure Result (E : Type) (R : E → Type) (X α S : Type) where
  /-- The calls with their answers. -/
  trace : List (Event E R)
  /-- The state of the environment. -/
  state : S
  /-- The result or the exception. -/
  outcome : Except X α

/-- Runs a program to its end. The tree is well-founded, so every program ends against every
    environment. -/
def Prog.run (env : Env E R S) : Prog E R X α → S → Result E R X α S
  | .ret a, s => ⟨[], s, .ok a⟩
  | .raise x, s => ⟨[], s, .error x⟩
  | .call e k, s =>
    let rest := (k (env e s).1).run env (env e s).2
    { rest with trace := ⟨e, (env e s).1⟩ :: rest.trace }

/-- The outcome of a program against an environment that always gives the same answer to a call. -/
def Prog.eval (answer : (e : E) → R e) : Prog E R X α → Except X α
  | .ret a => .ok a
  | .raise x => .error x
  | .call e k => (k (answer e)).eval answer

/-- Two programs that make the same calls, whatever the answers are, and return related results. -/
inductive Prog.Related (rel : α → β → Prop) : Prog E R X α → Prog E R X β → Prop where
  /-- Both return. -/
  | ret {a : α} {b : β} (h : rel a b) : Related rel (.ret a) (.ret b)
  /-- Both raise the same exception. -/
  | raise (x : X) : Related rel (.raise x) (.raise x)
  /-- Both make the same call. -/
  | call (e : E) {k : R e → Prog E R X α} {k' : R e → Prog E R X β}
      (h : ∀ r, Related rel (k r) (k' r)) : Related rel (.call e k) (.call e k')

/-- The ended program an outcome stands for. -/
def Prog.ofOutcome : Except X α → Prog E R X α
  | .ok a => .ret a
  | .error x => .raise x

/-- A monitor: a ghost state `Q` that follows the calls of a program and may forbid some of them. -/
structure Monitor (E : Type) (R : E → Type) (Q : Type) where
  /-- The call may be made. -/
  allows : Q → E → Prop
  /-- The ghost state after a call. -/
  next : Q → (e : E) → R e → Q

/-- The ghost state after the calls of `tr`. -/
def Monitor.after (M : Monitor E R Q) (q : Q) (tr : List (Event E R)) : Q :=
  tr.foldl (fun q ev => M.next q ev.1 ev.2) q

/-- All calls of `tr` are allowed when they are made one after the other. -/
def Monitor.Permits (M : Monitor E R Q) : Q → List (Event E R) → Prop
  | _, [] => True
  | q, ev :: tr => M.allows q ev.1 ∧ M.Permits (M.next q ev.1 ev.2) tr

/-- The monitor that forbids nothing and remembers every call. -/
def Monitor.history : Monitor E R (List (Event E R)) where
  allows _ _ := True
  next tr e r := tr ++ [⟨e, r⟩]

/-- The monitor that remembers every call and allows what `A` says after the calls made so far. -/
def Monitor.recording (A : List (Event E R) → E → Prop) : Monitor E R (List (Event E R)) where
  allows := A
  next tr e r := tr ++ [⟨e, r⟩]

/-- The monitor that allows only the calls of the kind `K`. -/
def Monitor.only (K : E → Prop) : Monitor E R Unit where
  allows _ e := K e
  next q _ _ := q

/-- The weakest precondition of a program for the monitor `M`: whatever the answers are, every call
    is allowed when it is made, a returned value satisfies `post` and an escaping exception `exn`. -/
def Prog.wp (M : Monitor E R Q) : Prog E R X α → (Q → α → Prop) → (Q → X → Prop) → Q → Prop
  | .ret a, post, _, q => post q a
  | .raise x, _, exn, q => exn q x
  | .call e k, post, exn, q => M.allows q e ∧ ∀ r, (k r).wp M post exn (M.next q e r)

end Resumption
