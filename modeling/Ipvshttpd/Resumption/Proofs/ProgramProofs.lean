import Ipvshttpd.Resumption.Program

/-!
# Proofs: weakest preconditions of programs

The rules of `Prog.wp` for the ways programs are put together, and the two theorems that transport a
weakest precondition to runs: `wp_steps` to every prefix of a run, `wp_run` to the end of a run
against an environment.
-/

namespace Resumption

variable {E : Type} {R : E → Type} {X α β Q Q' S : Type}

namespace Prog

/-! ## The monad -/

@[simp] theorem bind_eq (p : Prog E R X α) (f : α → Prog E R X β) : p >>= f = p.bind f := rfl

@[simp] theorem pure_eq (a : α) : (pure a : Prog E R X α) = .ret a := rfl

@[simp] theorem ret_bind (a : α) (f : α → Prog E R X β) : (ret a : Prog E R X α).bind f = f a := rfl

/-! ## Runs -/

theorem Steps.snoc {p : Prog E R X α} {tr : List (Event E R)} {e : E} {k : R e → Prog E R X α}
    (h : Steps p tr (.call e k)) (r : R e) : Steps p (tr ++ [⟨e, r⟩]) (k r) := by
  generalize hq : Prog.call e k = q at h
  induction h with
  | refl p => subst hq; exact .call e k r (.refl _)
  | call e' k' r' _ ih => exact .call e' k' r' (ih hq)

/-- The run against an environment is a run of the step relation that ends. -/
theorem run_steps (env : Env E R S) (p : Prog E R X α) (s : S) :
    Steps p (p.run env s).trace (ofOutcome (p.run env s).outcome) := by
  induction p generalizing s with
  | ret a => exact .refl _
  | raise x => exact .refl _
  | call e k ih => exact .call e k _ (ih _ _)

/-- A run whose calls do not change the state of the environment leaves it as it was. -/
theorem run_state_of_forall {env : Env E R S} {K : E → Prop} (henv : ∀ e s, K e → (env e s).2 = s)
    {p : Prog E R X α} {s : S} (h : ∀ ev ∈ (p.run env s).trace, K ev.1) :
    (p.run env s).state = s := by
  induction p generalizing s with
  | ret a => rfl
  | raise x => rfl
  | call e k ih =>
    have hs : (env e s).2 = s := henv e s (h _ (List.mem_cons_self ..))
    have hrest := ih (env e s).1 (s := (env e s).2) fun ev hev => h ev (List.mem_cons_of_mem _ hev)
    exact hrest.trans hs

/-! ## The rules of `wp` -/

section Rules

variable (M : Monitor E R Q) (post : Q → α → Prop) (exn : Q → X → Prop) (q : Q)

@[simp] theorem wp_ret (a : α) : (ret a : Prog E R X α).wp M post exn q ↔ post q a := Iff.rfl

@[simp] theorem wp_raise (x : X) : (raise x : Prog E R X α).wp M post exn q ↔ exn q x := Iff.rfl

@[simp] theorem wp_call (e : E) (k : R e → Prog E R X α) :
    (call e k).wp M post exn q ↔ M.allows q e ∧ ∀ r, (k r).wp M post exn (M.next q e r) := Iff.rfl

@[simp] theorem wp_perform (e : E) (post : Q → R e → Prop) :
    (perform e : Prog E R X (R e)).wp M post exn q ↔
      M.allows q e ∧ ∀ r, post (M.next q e r) r := Iff.rfl

/-- The weakest precondition of a sequence is that of its first part for that of its second part. -/
@[simp] theorem wp_bind (p : Prog E R X α) (f : α → Prog E R X β) (post : Q → β → Prop) :
    (p.bind f).wp M post exn q ↔ p.wp M (fun q a => (f a).wp M post exn q) exn q := by
  induction p generalizing q with
  | ret a => exact Iff.rfl
  | raise x => exact Iff.rfl
  | call e k ih =>
    constructor
    · rintro ⟨ha, h⟩
      exact ⟨ha, fun r => (ih r _).1 (h r)⟩
    · rintro ⟨ha, h⟩
      exact ⟨ha, fun r => (ih r _).2 (h r)⟩

theorem wp_ite {c : Prop} [Decidable c] {p p' : Prog E R X α} (h : c → p.wp M post exn q)
    (h' : ¬ c → p'.wp M post exn q) : (if c then p else p').wp M post exn q := by
  by_cases hc : c
  · rw [if_pos hc]; exact h hc
  · rw [if_neg hc]; exact h' hc

end Rules

theorem wp_mono {M : Monitor E R Q} {post post' : Q → α → Prop} {exn exn' : Q → X → Prop}
    (hpost : ∀ q a, post q a → post' q a) (hexn : ∀ q x, exn q x → exn' q x)
    {p : Prog E R X α} {q : Q} (h : p.wp M post exn q) : p.wp M post' exn' q := by
  induction p generalizing q with
  | ret a => exact hpost _ _ h
  | raise x => exact hexn _ _ h
  | call e k ih => exact ⟨h.1, fun r => ih r (h.2 r)⟩

/-- A coarser monitor: if `f` maps the ghost states of `M` to those of `M'` so that everything `M`
    allows is allowed by `M'`, a weakest precondition for `M` is one for `M'`. -/
theorem wp_map {M : Monitor E R Q} {M' : Monitor E R Q'} (f : Q → Q')
    (hallow : ∀ q e, M.allows q e → M'.allows (f q) e)
    (hnext : ∀ q e r, M.allows q e → f (M.next q e r) = M'.next (f q) e r)
    {post : Q' → α → Prop} {exn : Q' → X → Prop} {p : Prog E R X α} {q : Q}
    (h : p.wp M (fun q a => post (f q) a) (fun q x => exn (f q) x) q) :
    p.wp M' post exn (f q) := by
  induction p generalizing q with
  | ret a => exact h
  | raise x => exact h
  | call e k ih =>
    refine ⟨hallow q e h.1, fun r => ?_⟩
    rw [← hnext q e r h.1]
    exact ih r (h.2 r)

/-! ## From weakest preconditions to runs -/

/-- A run keeps the weakest precondition of what remains, at the ghost state the run leads to. -/
theorem wp_steps {M : Monitor E R Q} {post : Q → α → Prop} {exn : Q → X → Prop}
    {p p' : Prog E R X α} {tr : List (Event E R)} (hs : Steps p tr p') {q : Q}
    (h : p.wp M post exn q) : p'.wp M post exn (M.after q tr) := by
  induction hs generalizing q with
  | refl p => exact h
  | call e k r _ ih => exact ih (h.2 r)

/-- A relation between the calls made so far and the ghost state that every allowed call keeps. -/
theorem wp_steps_keep {M : Monitor E R Q} {I : List (Event E R) → Q → Prop}
    (hkeep : ∀ tr q e r, I tr q → M.allows q e → I (tr ++ [⟨e, r⟩]) (M.next q e r))
    {post : Q → α → Prop} {exn : Q → X → Prop} {p p' : Prog E R X α} {tr : List (Event E R)}
    (hs : Steps p tr p') {q : Q} (h : p.wp M post exn q) {tr₀ : List (Event E R)} (hI : I tr₀ q) :
    I (tr₀ ++ tr) (M.after q tr) := by
  induction hs generalizing q tr₀ with
  | refl p => simpa [Monitor.after] using hI
  | call e k r _ ih =>
    have hrest := ih (h.2 r) (hkeep tr₀ q e r hI h.1)
    rwa [List.append_assoc, List.singleton_append] at hrest

/-- Every call of a run is allowed when it is made. -/
theorem wp_permits {M : Monitor E R Q} {post : Q → α → Prop} {exn : Q → X → Prop}
    {p p' : Prog E R X α} {tr : List (Event E R)} (hs : Steps p tr p') {q : Q}
    (h : p.wp M post exn q) : M.Permits q tr := by
  induction hs generalizing q with
  | refl p => trivial
  | call e k r _ ih => exact ⟨h.1, ih (h.2 r)⟩

/-- Two programs that make the same calls run in step. -/
theorem Related.steps {rel : α → β → Prop} {p : Prog E R X α} {p' : Prog E R X β}
    (h : Related rel p p') {tr : List (Event E R)} {a : α} (hs : Steps p tr (.ret a)) :
    ∃ b, Steps p' tr (.ret b) ∧ rel a b := by
  induction h generalizing tr with
  | ret h =>
    cases hs
    exact ⟨_, .refl _, h⟩
  | raise x => cases hs
  | call e _ ih =>
    cases hs with
    | call _ _ r hs =>
      obtain ⟨b, hb, hrel⟩ := ih r hs
      exact ⟨b, .call e _ r hb, hrel⟩

/-- A part of a program that makes only calls of the kind `K`, all of them allowed: what is remembered
    of it afterwards is a run of it. -/
theorem wp_recording {A : List (Event E R) → E → Prop} {K : E → Prop}
    (hA : ∀ tr e, K e → A tr e) {p : Prog E R X α} {post : Unit → α → Prop}
    {exn : Unit → X → Prop} (h : p.wp (Monitor.only K) post exn ()) (tr₀ : List (Event E R)) :
    p.wp (Monitor.recording A)
      (fun tr a => post () a ∧ ∃ tr', tr = tr₀ ++ tr' ∧ Steps p tr' (.ret a))
      (fun _ x => exn () x) tr₀ := by
  induction p generalizing tr₀ with
  | ret a => exact ⟨h, [], (List.append_nil tr₀).symm, .refl _⟩
  | raise x => exact h
  | call e k ih =>
    refine ⟨hA _ _ h.1, fun r => wp_mono ?_ (fun _ _ hx => hx) (ih r (h.2 r) (tr₀ ++ [⟨e, r⟩]))⟩
    rintro tr a ⟨hpost, tr', rfl, hsteps⟩
    refine ⟨hpost, ⟨e, r⟩ :: tr', ?_, .call e k r hsteps⟩
    rw [List.append_assoc, List.singleton_append]

/-- A program that satisfies its weakest precondition ends in its postcondition, against every
    environment. -/
theorem wp_run {M : Monitor E R Q} {post : Q → α → Prop} {exn : Q → X → Prop} {p : Prog E R X α}
    {q : Q} (h : p.wp M post exn q) (env : Env E R S) (s : S) :
    (∃ a, (p.run env s).outcome = .ok a ∧ post (M.after q (p.run env s).trace) a) ∨
    (∃ x, (p.run env s).outcome = .error x ∧ exn (M.after q (p.run env s).trace) x) := by
  have hend := wp_steps (run_steps env p s) h
  cases hout : (p.run env s).outcome with
  | ok a => rw [hout] at hend; exact Or.inl ⟨a, rfl, hend⟩
  | error x => rw [hout] at hend; exact Or.inr ⟨x, rfl, hend⟩

/-- The calls of a run are of the kind that the program is restricted to. -/
theorem run_trace_only {K : E → Prop} {p : Prog E R X α} {post : Unit → α → Prop}
    {exn : Unit → X → Prop} (hp : p.wp (Monitor.only K) post exn ()) (env : Env E R S) (s : S) :
    ∀ ev ∈ (p.run env s).trace, K ev.1 := by
  induction p generalizing s with
  | ret a => exact fun _ hev => absurd hev (List.not_mem_nil)
  | raise x => exact fun _ hev => absurd hev (List.not_mem_nil)
  | call e k ih =>
    intro ev hev
    rcases List.mem_cons.1 hev with rfl | hev
    · exact hp.1
    · exact ih _ (hp.2 _) _ ev hev

/-- A program that makes only calls to which the environment always gives the same answer, and that do
    not change its state. -/
theorem run_of_only {env : Env E R S} {K : E → Prop} {answer : (e : E) → R e}
    (henv : ∀ e s, K e → env e s = (answer e, s)) {p : Prog E R X α}
    {post : Unit → α → Prop} {exn : Unit → X → Prop} (hp : p.wp (Monitor.only K) post exn ())
    (s : S) : (p.run env s).state = s ∧ (p.run env s).outcome = p.eval answer := by
  induction p with
  | ret a => exact ⟨rfl, rfl⟩
  | raise x => exact ⟨rfl, rfl⟩
  | call e k ih =>
    obtain ⟨he, hk⟩ := hp
    have hrest := ih (answer e) (hk _)
    have hrun : ((call e k).run env s).state = ((k (answer e)).run env s).state ∧
        ((call e k).run env s).outcome = ((k (answer e)).run env s).outcome := by
      simp [run, henv e s he]
    rw [hrun.1, hrun.2]
    exact hrest

/-- The run of a sequence is the run of its first part, and then that of its second part. -/
theorem run_bind_ok {env : Env E R S} {p : Prog E R X α} {s : S} {a : α}
    (h : (p.run env s).outcome = .ok a) (f : α → Prog E R X β) :
    (p.bind f).run env s =
      ⟨(p.run env s).trace ++ ((f a).run env (p.run env s).state).trace,
        ((f a).run env (p.run env s).state).state, ((f a).run env (p.run env s).state).outcome⟩ := by
  induction p generalizing s with
  | ret b =>
    have hb : b = a := Except.ok.inj h
    rw [hb]
    rfl
  | raise x => cases h
  | call e k ih =>
    have hrest := ih _ h
    show ({ ((k (env e s).1).bind f).run env (env e s).2 with
      trace := ⟨e, (env e s).1⟩ :: (((k (env e s).1).bind f).run env (env e s).2).trace } :
        Result E R X β S) = _
    rw [hrest]
    rfl

theorem eval_bind_ok {answer : (e : E) → R e} {p : Prog E R X α} {a : α}
    (h : p.eval answer = .ok a) (f : α → Prog E R X β) :
    (p.bind f).eval answer = (f a).eval answer := by
  induction p with
  | ret b =>
    have hb : b = a := Except.ok.inj h
    rw [hb]
    rfl
  | raise x => cases h
  | call e k ih => exact ih _ h

/-! ## Related programs -/

theorem Related.refl (p : Prog E R X α) : Related Eq p p := by
  induction p with
  | ret a => exact .ret rfl
  | raise x => exact .raise x
  | call e k ih => exact .call e ih

theorem Related.bind {α' β' : Type} {rel : α → α' → Prop} {rel' : β → β' → Prop}
    {p : Prog E R X α} {p' : Prog E R X α'} (h : Related rel p p')
    {f : α → Prog E R X β} {f' : α' → Prog E R X β'}
    (hf : ∀ a b, rel a b → Related rel' (f a) (f' b)) : Related rel' (p.bind f) (p'.bind f') := by
  induction h with
  | ret h => exact hf _ _ h
  | raise x => exact .raise x
  | call e _ ih => exact .call e ih

/-- Against the same environment, the runs of related programs differ in their results only. -/
theorem Related.run {rel : α → β → Prop} {p : Prog E R X α} {p' : Prog E R X β}
    (h : Related rel p p') (env : Env E R S) (s : S) :
    (p.run env s).trace = (p'.run env s).trace ∧ (p.run env s).state = (p'.run env s).state ∧
      ((∃ a b, (p.run env s).outcome = .ok a ∧ (p'.run env s).outcome = .ok b ∧ rel a b) ∨
        ∃ x, (p.run env s).outcome = .error x ∧ (p'.run env s).outcome = .error x) := by
  induction h generalizing s with
  | ret h => exact ⟨rfl, rfl, Or.inl ⟨_, _, rfl, rfl, h⟩⟩
  | raise x => exact ⟨rfl, rfl, Or.inr ⟨x, rfl, rfl⟩⟩
  | call e _ ih =>
    obtain ⟨htrace, hstate, houtcome⟩ := ih (env e s).1 (env e s).2
    exact ⟨congrArg (List.cons _) htrace, hstate, houtcome⟩

end Prog

namespace Monitor

@[simp] theorem after_nil (M : Monitor E R Q) (q : Q) : M.after q [] = q := rfl

@[simp] theorem after_cons (M : Monitor E R Q) (q : Q) (ev : Event E R) (tr : List (Event E R)) :
    M.after q (ev :: tr) = M.after (M.next q ev.1 ev.2) tr := rfl

@[simp] theorem after_append (M : Monitor E R Q) (q : Q) (tr tr' : List (Event E R)) :
    M.after q (tr ++ tr') = M.after (M.after q tr) tr' := List.foldl_append

@[simp] theorem after_history (tr₀ tr : List (Event E R)) : history.after tr₀ tr = tr₀ ++ tr := by
  induction tr generalizing tr₀ with
  | nil => simp
  | cons ev tr ih =>
    have hnext : history.next tr₀ ev.1 ev.2 = tr₀ ++ [ev] := rfl
    rw [after_cons, hnext, ih, List.append_assoc, List.singleton_append]

@[simp] theorem after_recording (A : List (Event E R) → E → Prop) (tr₀ tr : List (Event E R)) :
    (recording A).after tr₀ tr = tr₀ ++ tr := after_history tr₀ tr

@[simp] theorem permits_nil (M : Monitor E R Q) (q : Q) : M.Permits q [] := trivial

@[simp] theorem permits_cons (M : Monitor E R Q) (q : Q) (ev : Event E R) (tr : List (Event E R)) :
    M.Permits q (ev :: tr) ↔ M.allows q ev.1 ∧ M.Permits (M.next q ev.1 ev.2) tr := Iff.rfl

theorem permits_append (M : Monitor E R Q) (q : Q) (tr tr' : List (Event E R)) :
    M.Permits q (tr ++ tr') ↔ M.Permits q tr ∧ M.Permits (M.after q tr) tr' := by
  induction tr generalizing q with
  | nil => simp
  | cons ev tr ih => simp only [List.cons_append, permits_cons, after_cons, ih, and_assoc]

/-- Every call of a permitted run is allowed after those before it. -/
theorem permits_allows {M : Monitor E R Q} {q : Q} {before after : List (Event E R)}
    {ev : Event E R} (h : M.Permits q (before ++ ev :: after)) :
    M.allows (M.after q before) ev.1 :=
  ((permits_append M q before (ev :: after)).1 h).2.1

theorem permits_of_allows {M : Monitor E R Q} (h : ∀ q e, M.allows q e) (q : Q)
    (tr : List (Event E R)) : M.Permits q tr := by
  induction tr generalizing q with
  | nil => trivial
  | cons ev tr ih => exact ⟨h q ev.1, ih _⟩

end Monitor

end Resumption
