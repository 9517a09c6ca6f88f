import Ipvshttpd.Resumption.Stateful
import Ipvshttpd.Resumption.Proofs.ProgramProofs

/-!
# Proofs: weakest preconditions of programs with variables
-/

namespace Resumption.Stateful

variable {E : Type} {R : E → Type} {X V α β Q : Type}

section Rules

variable (M : Monitor E R Q) (exn : Q → X → Prop) (q : Q) (v : V)

@[simp] theorem wp_pure (a : α) (post : Q → V → α → Prop) :
    wp M (pure a : Stateful V E R X α) post exn q v ↔ post q v a := Iff.rfl

@[simp] theorem wp_bind (p : Stateful V E R X α) (f : α → Stateful V E R X β)
    (post : Q → V → β → Prop) :
    wp M (p >>= f) post exn q v ↔ wp M p (fun q v a => wp M (f a) post exn q v) exn q v :=
  Prog.wp_bind M exn q (p v) (fun r => f r.1 r.2) fun q r => post q r.2 r.1

@[simp] theorem wp_get (post : Q → V → V → Prop) :
    wp M (get : Stateful V E R X V) post exn q v ↔ post q v v := Iff.rfl

@[simp] theorem wp_modify (f : V → V) (post : Q → V → PUnit → Prop) :
    wp M (modify f : Stateful V E R X PUnit) post exn q v ↔ post q (f v) ⟨⟩ := Iff.rfl

@[simp] theorem wp_call (e : E) (post : Q → V → R e → Prop) :
    wp M (call e : Stateful V E R X (R e)) post exn q v ↔
      M.allows q e ∧ ∀ r, post (M.next q e r) v r := Iff.rfl

@[simp] theorem wp_throw (x : X) (post : Q → V → α → Prop) :
    wp M (throw x : Stateful V E R X α) post exn q v ↔ exn q x := Iff.rfl

theorem wp_ite {c : Prop} [Decidable c] {p p' : Stateful V E R X α} {post : Q → V → α → Prop}
    (h : c → wp M p post exn q v) (h' : ¬ c → wp M p' post exn q v) :
    wp M (if c then p else p') post exn q v := by
  by_cases hc : c
  · rw [if_pos hc]; exact h hc
  · rw [if_neg hc]; exact h' hc

end Rules

theorem wp_mono {M : Monitor E R Q} {p : Stateful V E R X α} {post post' : Q → V → α → Prop}
    {exn exn' : Q → X → Prop} {q : Q} {v : V} (hpost : ∀ q v a, post q v a → post' q v a)
    (hexn : ∀ q x, exn q x → exn' q x) (h : wp M p post exn q v) : wp M p post' exn' q v := by
  unfold wp at h ⊢
  exact Prog.wp_mono (fun q (r : α × V) => hpost q r.2 r.1) hexn h

/-! ## Runs -/

/-- The monitor permits every run of a program that satisfies its weakest precondition, and the run
    ends in the postcondition. -/
theorem wp_run {S : Type} {M : Monitor E R Q} {p : Stateful V E R X α} {post : Q → V → α → Prop}
    {exn : Q → X → Prop} {q : Q} {v : V} (h : wp M p post exn q v) (env : Env E R S) (s : S) :
    M.Permits q ((p v).run env s).trace ∧
      ((∃ a v', ((p v).run env s).outcome = .ok (a, v') ∧
          post (M.after q ((p v).run env s).trace) v' a) ∨
        ∃ x, ((p v).run env s).outcome = .error x ∧
          exn (M.after q ((p v).run env s).trace) x) := by
  unfold wp at h
  refine ⟨Prog.wp_permits (Prog.run_steps env (p v) s) h, ?_⟩
  rcases Prog.wp_run h env s with ⟨⟨a, v'⟩, hout, hpost⟩ | ⟨x, hout, hexn⟩
  · exact Or.inl ⟨a, v', hout, hpost⟩
  · exact Or.inr ⟨x, hout, hexn⟩

end Resumption.Stateful
