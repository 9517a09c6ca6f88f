import Ipvshttpd.Resumption.Handler
import Ipvshttpd.Resumption.Proofs.StatefulProofs

/-!
# Proofs: handlers

A simulation between the ghost states of two monitors that every handler keeps is kept by every
program that is carried out by the handlers.
-/

namespace Resumption

variable {E F : Type} {R : E → Type} {R' : F → Type} {X Y V α P Q : Type}

/-- If the handler of every allowed call keeps the relation `sim` between the ghost states of the two
    levels, a weakest precondition at the upper level is one at the lower level. -/
theorem Prog.handle_wp {N : Monitor E R P} {M : Monitor F R' Q}
    {g : X → Y} {h : (e : E) → Stateful V F R' Y (R e)} {sim : P → Q → V → Prop}
    {exn : P → X → Prop} {exn' : Q → Y → Prop}
    (hcall : ∀ p q v e, sim p q v → N.allows p e →
      Stateful.wp M (h e) (fun q v r => sim (N.next p e r) q v) exn' q v)
    (hexn : ∀ p q v x, sim p q v → exn p x → exn' q (g x)) {prog : Prog E R X α} {post : P → α → Prop}
    {p : P} {q : Q} {v : V} (hprog : prog.wp N post exn p) (hsim : sim p q v) :
    Stateful.wp M (prog.handle g h) (fun q v a => ∃ p, sim p q v ∧ post p a) exn' q v := by
  induction prog generalizing p q v with
  | ret a => exact ⟨p, hsim, hprog⟩
  | raise x => exact hexn p q v x hsim hprog
  | call e k ih =>
    rw [Prog.handle, Stateful.wp_bind]
    refine Stateful.wp_mono ?_ (fun _ _ hx => hx) (hcall p q v e hsim hprog.1)
    intro q' v' r hsim'
    exact ih r (hprog.2 r) hsim'

/-! ## Runs -/

theorem Prog.run_bind_error {S β : Type} {env : Env E R S} {p : Prog E R X α} {s : S} {x : X}
    (h : (p.run env s).outcome = .error x) (f : α → Prog E R X β) :
    ((p.bind f).run env s).outcome = .error x := by
  induction p generalizing s with
  | ret a => cases h
  | raise y => exact congrArg Except.error (Except.error.inj h)
  | call e k ih => exact ih _ h

/-- If every allowed call is one step of `sem` when its handler has run to its end, the program sees an
    atomic history: what its handlers do between the calls does not show. -/
theorem Prog.handle_atomic {S K : Type} {N : Monitor E R P} {env : Env F R' S} {g : X → Y}
    {h : (e : E) → Stateful V F R' Y (R e)} {sim : P → S → V → Prop} {view : S → K}
    {sem : (e : E) → K → R e → K → Prop}
    (hcall : ∀ p s v e r v', sim p s v → N.allows p e → ((h e v).run env s).outcome = .ok (r, v') →
      sim (N.next p e r) ((h e v).run env s).state v' ∧
        sem e (view s) r (view ((h e v).run env s).state))
    {prog : Prog E R X α} {post : P → α → Prop} {exn : P → X → Prop} {p : P} {s : S} {v v' : V}
    {a : α} (hprog : prog.wp N post exn p) (hsim : sim p s v)
    (hrun : ((prog.handle g h v).run env s).outcome = .ok (a, v')) :
    ∃ tr, Steps prog tr (.ret a) ∧
      Atomic sem (view s) tr (view ((prog.handle g h v).run env s).state) ∧
      sim (N.after p tr) ((prog.handle g h v).run env s).state v' := by
  induction prog generalizing p s v with
  | ret b =>
    cases hrun
    exact ⟨[], .refl _, .nil _, hsim⟩
  | raise x => cases hrun
  | call e k ih =>
    have hbind : ((Prog.call e k).handle g h v).run env s =
        ((h e v).bind fun rv => (k rv.1).handle g h rv.2).run env s := rfl
    cases hout : ((h e v).run env s).outcome with
    | error y =>
      have herror := run_bind_error hout fun rv => (k rv.1).handle g h rv.2
      rw [hbind, herror] at hrun
      cases hrun
    | ok rv =>
      obtain ⟨r, w⟩ := rv
      obtain ⟨hsim', hsem⟩ := hcall p s v e r w hsim hprog.1 hout
      rw [hbind, run_bind_ok hout] at hrun ⊢
      obtain ⟨tr, hsteps, hatomic, hsim''⟩ := ih r (hprog.2 r) hsim' hrun
      exact ⟨⟨e, r⟩ :: tr, .call e k r hsteps, .step hsem hatomic, hsim''⟩

/-! ## Two monitors -/

/-- Two weakest preconditions of a program hold together. -/
theorem Prog.wp_both {M : Monitor E R P} {N : Monitor E R Q} {prog : Prog E R X α}
    {post : P → α → Prop} {post' : Q → α → Prop} {exn : P → X → Prop} {exn' : Q → X → Prop} {p : P}
    {q : Q} (h : prog.wp M post exn p) (h' : prog.wp N post' exn' q) :
    prog.wp (M.both N) (fun pq a => post pq.1 a ∧ post' pq.2 a)
      (fun pq x => exn pq.1 x ∧ exn' pq.2 x) (p, q) := by
  induction prog generalizing p q with
  | ret a => exact ⟨h, h'⟩
  | raise x => exact ⟨h, h'⟩
  | call e k ih => exact ⟨⟨h.1, h'.1⟩, fun r => ih r (h.2 r) (h'.2 r)⟩

/-- The second kind of calls leaves the ghost state of the first one alone. -/
theorem Prog.inr_wp {g : X → Y} {M : Monitor E R P} {N : Monitor F R' Q}
    {prog : Prog F R' X α} {post : P × Q → α → Prop} {exn : P × Q → Y → Prop} {p : P} {q : Q}
    (h : prog.wp N (fun q a => post (p, q) a) (fun q x => exn (p, q) (g x)) q) :
    (prog.inr g).wp (M.sum N) post exn (p, q) := by
  induction prog generalizing q with
  | ret a => exact h
  | raise x => exact h
  | call f k ih => exact ⟨h.1, fun r => ih r (h.2 r)⟩

theorem Stateful.inr_wp {g : X → Y} {M : Monitor E R P} {N : Monitor F R' Q}
    {prog : Stateful V F R' X α} {post : P × Q → V → α → Prop} {exn : P × Q → Y → Prop} {p : P}
    {q : Q} {v : V}
    (h : Stateful.wp N prog (fun q v a => post (p, q) v a) (fun q x => exn (p, q) (g x)) q v) :
    Stateful.wp (M.sum N) (prog.inr g) post exn (p, q) v := by
  unfold Stateful.wp at h ⊢
  exact Prog.inr_wp h

end Resumption
