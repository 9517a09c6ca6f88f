import Ipvshttpd.Resumption.Program

/-!
# Programs with variables

A program that also reads and writes variables of its own, which the environment does not see.
-/

namespace Resumption

variable {E : Type} {R : E → Type} {X V α β Q : Type}

/-- A program with the variables `V`. -/
abbrev Stateful (V E : Type) (R : E → Type) (X α : Type) := StateT V (Prog E R X) α

namespace Stateful

/-- A call that leaves the variables as they are. -/
def call (e : E) : Stateful V E R X (R e) := fun v => .call e fun r => .ret (r, v)

/-- Raises an exception; the variables are lost. -/
def throw (x : X) : Stateful V E R X α := fun _ => .raise x

/-- Weakest preconditions that speak about the variables too. -/
def wp (M : Monitor E R Q) (p : Stateful V E R X α) (post : Q → V → α → Prop)
    (exn : Q → X → Prop) (q : Q) (v : V) : Prop :=
  (p v).wp M (fun q r => post q r.2 r.1) exn q

end Stateful

end Resumption
