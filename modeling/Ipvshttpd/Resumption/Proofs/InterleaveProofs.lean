import Mathlib.Data.List.Nodup
import Ipvshttpd.Resumption.Interleave
import Ipvshttpd.Resumption.Proofs.ProgramProofs

/-!
# Proofs: interleaved programs and locks

What one thread did in a reachable system is a run of its own program (`reach_steps`), so a weakest
precondition of the program holds of what remains of it (`reach_wp`). From this follow the lock
discipline (`owner_iff_held`), the progress of a thread that runs alone (`exists_solo_run`), and the
serialization of critical sections (`shared_eq_serial`): a part of the state that is changed under
one lock only is what the threads leave behind when they run one after the other, in the order in
which they have taken the lock.
-/

namespace Resumption

open Relation

variable {ι E : Type} {R : E → Type} {X α S L T Q Q' : Type} [DecidableEq ι]
variable {sem : Sem ι E R S} {s₀ : S} {progs : ι → Prog E R X α} {c : Config ι E R X α S}

/-! ## Local traces -/

@[simp] theorem localTrace_nil (i : ι) : localTrace i ([] : List (Entry ι E R S)) = [] := rfl

@[simp] theorem localTrace_advance_self (c : Config ι E R X α S) (i : ι) (e : E) (r : R e) (s' : S)
    (p' : Prog E R X α) :
    localTrace i (c.advance i e r s' p').hist = localTrace i c.hist ++ [⟨e, r⟩] := by
  simp [Config.advance, localTrace]

theorem localTrace_advance_ne (c : Config ι E R X α S) {i j : ι} (hij : j ≠ i) (e : E) (r : R e)
    (s' : S) (p' : Prog E R X α) :
    localTrace j (c.advance i e r s' p').hist = localTrace j c.hist := by
  simp [Config.advance, localTrace, hij.symm]

/-- What a thread did in a reachable system is a run of its program. -/
theorem reach_steps (h : Reach sem (Config.init s₀ progs) c) (i : ι) :
    (progs i).Steps (localTrace i c.hist) (c.progs i) := by
  induction h with
  | refl => exact .refl _
  | tail _ hstep ih =>
    cases hstep with
    | call j e k r s' hp hs =>
      by_cases hij : i = j
      · subst hij
        rw [localTrace_advance_self]
        simp only [Config.advance, Function.update_self]
        rw [hp] at ih
        exact ih.snoc r
      · rw [localTrace_advance_ne _ hij]
        simp only [Config.advance, Function.update_of_ne hij]
        exact ih

/-- A weakest precondition of a thread's program holds of what remains of it in every reachable
    system, at the ghost state its local trace leads to. -/
theorem reach_wp {M : Monitor E R Q} {post : Q → α → Prop} {exn : Q → X → Prop} {q : Q}
    (h : Reach sem (Config.init s₀ progs) c) {i : ι} (hwp : (progs i).wp M post exn q) :
    (c.progs i).wp M post exn (M.after q (localTrace i c.hist)) :=
  Prog.wp_steps (reach_steps h i) hwp

/-- What a schedule leads to, with answers that the meaning of the calls admits, is reachable. -/
theorem play_reach {answer : ι → (e : E) → S → Option (R e × S)}
    (hanswer : ∀ i e s r s', answer i e s = some (r, s') → sem i e s r s') {schedule : List ι}
    {c c' : Config ι E R X α S} (h : c.play answer schedule = some c') : Reach sem c c' := by
  induction schedule generalizing c with
  | nil =>
    obtain rfl : c = c' := Option.some.inj h
    exact .refl
  | cons i schedule ih =>
    rw [Config.play, Option.bind_eq_some_iff] at h
    obtain ⟨c₁, hmove, hrest⟩ := h
    refine .head ?_ (ih hrest)
    unfold Config.move at hmove
    cases hp : c.progs i with
    | call e k =>
      rw [hp, Option.map_eq_some_iff] at hmove
      obtain ⟨⟨r, s'⟩, hr, rfl⟩ := hmove
      exact .call i e k r s' hp (hanswer i e c.shared r s' hr)
    | ret a =>
      rw [hp] at hmove
      cases hmove
    | raise x =>
      rw [hp] at hmove
      cases hmove

/-- An induction over the steps of a run in which the local traces determine a ghost state: a
    property of systems that holds at first and is kept by every step that the monitor allows
    holds of every reachable system. -/
theorem reach_induction {M : ι → Monitor E R Q} {post : ι → Q → α → Prop} {exn : ι → Q → X → Prop}
    {q : ι → Q} (hwp : ∀ i, (progs i).wp (M i) (post i) (exn i) (q i))
    {P : Config ι E R X α S → Prop} (hinit : P (Config.init s₀ progs))
    (hstep : ∀ (c : Config ι E R X α S) i e k r s', Reach sem (Config.init s₀ progs) c → P c →
      c.progs i = .call e k → sem i e c.shared r s' →
      (M i).allows ((M i).after (q i) (localTrace i c.hist)) e → P (c.advance i e r s' (k r)))
    (h : Reach sem (Config.init s₀ progs) c) : P c := by
  induction h with
  | refl => exact hinit
  | tail hreach hs ih =>
    cases hs with
    | call i e k r s' hp hsem =>
      have hw := reach_wp hreach (hwp i)
      rw [hp] at hw
      exact hstep _ i e k r s' hreach ih hp hsem hw.1

theorem mem_localTrace {hist : List (Entry ι E R S)} {en : Entry ι E R S} (h : en ∈ hist) :
    en.ev ∈ localTrace en.tid hist := by
  simp only [localTrace, List.mem_map, List.mem_filter]
  exact ⟨en, ⟨h, by simp⟩, rfl⟩

/-- Every entry of the history is a step from a reachable system. -/
theorem hist_step (h : Reach sem (Config.init s₀ progs) c) {en : Entry ι E R S} (hen : en ∈ c.hist) :
    (∃ c₁, Reach sem (Config.init s₀ progs) c₁ ∧ c₁.shared = en.pre) ∧
      sem en.tid en.ev.1 en.pre en.ev.2 en.post := by
  induction h with
  | refl => simp [Config.init] at hen
  | tail hreach hstep ih =>
    cases hstep with
    | call i e k r s' hp hs =>
      simp only [Config.advance, List.mem_append, List.mem_singleton] at hen
      rcases hen with hen | rfl
      · exact ih hen
      · exact ⟨⟨_, hreach, rfl⟩, hs⟩

/-! ## Lock discipline -/

section Locks

variable [DecidableEq L] {ops : LockOps E L} {owner : S → L → Option ι}

@[simp] theorem held_nil (ops : LockOps E L) (l : L) :
    ops.held ([] : List (Event E R)) l = false := rfl

theorem held_snoc (ops : LockOps E L) (tr : List (Event E R)) (e : E) (r : R e) :
    ops.held (tr ++ [⟨e, r⟩]) = ops.monitor.next (ops.held tr) e r := by
  simp [LockOps.held]

/-- Owners and holders still agree after one thread `j` has changed what it holds of the lock `m`. -/
theorem owner_update {own own' : L → Option ι} (held held' : ι → L → Bool) {m : L} {j : ι}
    {b : Option ι} {v : Bool} (ih : ∀ l i, own l = some i ↔ held i l = true)
    (hown : own' = Function.update own m b) (hself : held' j = Function.update (held j) m v)
    (hother : ∀ i, i ≠ j → held' i = held i) (hmine : b = some j ↔ v = true)
    (hothers : ∀ i, i ≠ j → (b = some i ↔ own m = some i)) (l : L) (i : ι) :
    own' l = some i ↔ held' i l = true := by
  rw [hown]
  by_cases hlm : l = m
  · subst hlm
    rw [Function.update_self]
    by_cases hij : i = j
    · subst hij
      rw [hself, Function.update_self]
      exact hmine
    · rw [hother i hij, hothers i hij]
      exact ih l i
  · rw [Function.update_of_ne hlm]
    by_cases hij : i = j
    · subst hij
      rw [hself, Function.update_of_ne hlm]
      exact ih l i
    · rw [hother i hij]
      exact ih l i

/-- If every thread respects the locks, then in every reachable system the owner of a lock is
    exactly the thread that holds it by its own calls. -/
theorem owner_iff_held (hops : ops.Respects sem owner) (hfree : ∀ l, owner s₀ l = none)
    {post : ι → (L → Bool) → α → Prop} {exn : ι → (L → Bool) → X → Prop}
    (hwp : ∀ i, (progs i).wp ops.monitor (post i) (exn i) fun _ => false)
    (h : Reach sem (Config.init s₀ progs) c) :
    ∀ l i, owner c.shared l = some i ↔ ops.held (localTrace i c.hist) l = true := by
  refine reach_induction (M := fun _ => ops.monitor) hwp (P := fun c => ∀ l i,
    owner c.shared l = some i ↔ ops.held (localTrace i c.hist) l = true) ?_ ?_ h
  · intro l i
    simp [Config.init, hfree]
  · intro c j e k r s' _ ih _ hsem hallow l i
    obtain ⟨hacq, hrel⟩ := hallow
    have hshared : (c.advance j e r s' (k r)).shared = s' := rfl
    rw [hshared]
    -- what the call does to the owners, and to the ghost state of the thread that makes it
    have hself : ops.held (localTrace j (c.advance j e r s' (k r)).hist)
        = ops.monitor.next (ops.held (localTrace j c.hist)) e r := by
      rw [localTrace_advance_self, held_snoc]
    have hother : ∀ i, i ≠ j → ops.held (localTrace i (c.advance j e r s' (k r)).hist)
        = ops.held (localTrace i c.hist) := by
      intro i hij
      rw [localTrace_advance_ne c hij]
    cases ha : ops.acquires e with
    | some m =>
      obtain ⟨hnone, hown⟩ := hops.acquire ha hsem
      have hnext : ops.monitor.next (ops.held (localTrace j c.hist)) e r
          = Function.update (ops.held (localTrace j c.hist)) m true := by
        simp [LockOps.monitor, ha]
      refine owner_update (fun i => ops.held (localTrace i c.hist))
        (fun i => ops.held (localTrace i (c.advance j e r s' (k r)).hist)) ih hown
        (hself.trans hnext) hother ?_ ?_ l i
      · simp
      · intro i hij
        simp [hnone, Ne.symm hij]
    | none =>
      cases hr : ops.releases e with
      | some m =>
        have hown := hops.release ha hr hsem
        have hmine : owner c.shared m = some j := (ih m j).2 (hrel m hr)
        have hnext : ops.monitor.next (ops.held (localTrace j c.hist)) e r
            = Function.update (ops.held (localTrace j c.hist)) m false := by
          simp [LockOps.monitor, ha, hr]
        refine owner_update (fun i => ops.held (localTrace i c.hist))
          (fun i => ops.held (localTrace i (c.advance j e r s' (k r)).hist)) ih hown
          (hself.trans hnext) hother ?_ ?_ l i
        · simp
        · intro i hij
          simp [hmine, Ne.symm hij]
      | none =>
        have hnext : ops.monitor.next (ops.held (localTrace j c.hist)) e r
            = ops.held (localTrace j c.hist) := by
          simp [LockOps.monitor, ha, hr]
        rw [hops.other ha hr hsem]
        by_cases hij : i = j
        · subst hij; rw [hself, hnext]; exact ih l i
        · rw [hother i hij]; exact ih l i

/-! ## Progress of a thread that runs alone -/

/-- If no other thread owns a lock, a thread that respects the locks can run to its end by itself:
    only taking a lock may block. -/
theorem exists_solo_run (hops : ops.Respects sem owner)
    (hlive : ∀ i e s, (∀ l, ops.acquires e = some l → owner s l = none) → ∃ r s', sem i e s r s')
    (i : ι) {p : Prog E R X α} {post : (L → Bool) → α → Prop} {exn : (L → Bool) → X → Prop}
    {q : L → Bool} (hwp : p.wp ops.monitor post exn q) :
    ∀ {c : Config ι E R X α S}, c.progs i = p →
      (∀ l, owner c.shared l = if q l then some i else none) →
      ∃ c', Reach sem c c' ∧ (c'.progs i).Ended ∧ ∀ j, j ≠ i → c'.progs j = c.progs j := by
  induction p generalizing q with
  | ret a => intro c hp _; exact ⟨c, .refl, by rw [hp]; trivial, fun _ _ => rfl⟩
  | raise x => intro c hp _; exact ⟨c, .refl, by rw [hp]; trivial, fun _ _ => rfl⟩
  | call e k ih =>
    intro c hp howner
    obtain ⟨⟨hacq, hrel⟩, hk⟩ := hwp
    obtain ⟨r, s', hsem⟩ := hlive i e c.shared (fun l hl => by rw [howner l, hacq l hl]; simp)
    have howner' : ∀ l, owner s' l = if ops.monitor.next q e r l then some i else none := by
      intro l
      cases ha : ops.acquires e with
      | some m =>
        rw [(hops.acquire ha hsem).2]
        by_cases hlm : l = m
        · subst hlm; simp [LockOps.monitor, ha]
        · simp [LockOps.monitor, ha, hlm, howner]
      | none =>
        cases hr : ops.releases e with
        | some m =>
          rw [hops.release ha hr hsem]
          by_cases hlm : l = m
          · subst hlm; simp [LockOps.monitor, ha, hr]
          · simp [LockOps.monitor, ha, hr, hlm, howner]
        | none =>
          rw [hops.other ha hr hsem]
          simp [LockOps.monitor, ha, hr, howner]
    obtain ⟨c', hreach, hend, hothers⟩ := ih r (hk r) (c := c.advance i e r s' (k r))
      (by simp [Config.advance]) howner'
    refine ⟨c', ReflTransGen.head (.call i e k r s' hp hsem) hreach, hend, fun j hj => ?_⟩
    rw [hothers j hj]
    simp [Config.advance, hj]

/-! ## Serialization of critical sections -/

omit [DecidableEq ι] in
@[simp] theorem order_nil (ops : LockOps E L) (l : L) :
    ops.order l ([] : List (Entry ι E R S)) = [] := rfl

theorem order_acquire {e : E} {l : L} (ha : ops.acquires e = some l) (c : Config ι E R X α S) (i : ι)
    (r : R e) (s' : S) (p' : Prog E R X α) :
    ops.order l (c.advance i e r s' p').hist = ops.order l c.hist ++ [i] := by
  simp [Config.advance, LockOps.order, ha]

theorem order_other {e : E} {l : L} (ha : ops.acquires e ≠ some l) (c : Config ι E R X α S) (i : ι)
    (r : R e) (s' : S) (p' : Prog E R X α) :
    ops.order l (c.advance i e r s' p').hist = ops.order l c.hist := by
  simp [Config.advance, LockOps.order, ha]

/-- The owner of a lock is the thread that took it last. -/
theorem order_getLast_of_owner (hops : ops.Respects sem owner) (hfree : ∀ l, owner s₀ l = none)
    (h : Reach sem (Config.init s₀ progs) c) {l : L} {i : ι} (hi : owner c.shared l = some i) :
    ∃ pre, ops.order l c.hist = pre ++ [i] := by
  induction h generalizing i with
  | refl => simp [Config.init, hfree] at hi
  | tail _ hstep ih =>
    cases hstep with
    | call j e k r s' hp hsem =>
      have hi' : owner s' l = some i := hi
      cases ha : ops.acquires e with
      | some m =>
        rw [(hops.acquire ha hsem).2] at hi'
        by_cases hlm : l = m
        · subst hlm
          rw [Function.update_self] at hi'
          rw [order_acquire ha, Option.some.inj hi']
          exact ⟨_, rfl⟩
        · rw [Function.update_of_ne hlm] at hi'
          rw [order_other (by rw [ha]; simpa using Ne.symm hlm)]
          exact ih hi'
      | none =>
        rw [order_other (by rw [ha]; simp)]
        cases hr : ops.releases e with
        | some m =>
          rw [hops.release ha hr hsem] at hi'
          by_cases hlm : l = m
          · subst hlm; simp at hi'
          · rw [Function.update_of_ne hlm] at hi'; exact ih hi'
        | none => rw [hops.other ha hr hsem] at hi'; exact ih hi'

/-- Every thread takes the lock at most once, if its monitor lets it do so only in a ghost state
    that is `F`, and it never becomes so again. -/
theorem order_nodup {l : L} {M : ι → Monitor E R Q} {post : ι → Q → α → Prop} {exn : ι → Q → X → Prop}
    {q : ι → Q} (hwp : ∀ i, (progs i).wp (M i) (post i) (exn i) (q i)) {F : Q → Prop}
    (hneeds : ∀ {i q e}, (M i).allows q e → ops.acquires e = some l → F q)
    (hspends : ∀ {i q e} r, (M i).allows q e → ops.acquires e = some l →
      ¬ F ((M i).next q e r))
    (hspent : ∀ {i q e} r, (M i).allows q e → ¬ F q → ¬ F ((M i).next q e r))
    (h : Reach sem (Config.init s₀ progs) c) :
    (ops.order l c.hist).Nodup ∧
      ∀ i ∈ ops.order l c.hist, ¬ F ((M i).after (q i) (localTrace i c.hist)) := by
  refine reach_induction hwp (P := fun c => (ops.order l c.hist).Nodup ∧
    ∀ i ∈ ops.order l c.hist, ¬ F ((M i).after (q i) (localTrace i c.hist))) ?_ ?_ h
  · simp [Config.init]
  · rintro c j e k r s' - ⟨hnd, hold⟩ - - hallow
    have hnext : (M j).after (q j) (localTrace j (c.advance j e r s' (k r)).hist)
        = (M j).next ((M j).after (q j) (localTrace j c.hist)) e r := by
      rw [localTrace_advance_self]; simp
    have hkeep : ∀ i ∈ ops.order l c.hist, ¬ F
        ((M i).after (q i) (localTrace i (c.advance j e r s' (k r)).hist)) := by
      intro i hi
      by_cases hij : i = j
      · subst hij; rw [hnext]; exact hspent r hallow (hold i hi)
      · rw [localTrace_advance_ne c hij]; exact hold i hi
    by_cases ha : ops.acquires e = some l
    · rw [order_acquire ha]
      have hj : j ∉ ops.order l c.hist := fun hj => hold j hj (hneeds hallow ha)
      refine ⟨List.nodup_append.2 ⟨hnd, List.nodup_singleton j, ?_⟩, ?_⟩
      · intro a haIn b hb hab
        rw [List.mem_singleton.1 hb] at hab
        exact hj (hab ▸ haIn)
      · intro i hi
        rcases List.mem_append.1 hi with hi | hi
        · exact hkeep i hi
        · rw [List.mem_singleton.1 hi, hnext]; exact hspends r hallow ha
    · rw [order_other ha]
      exact ⟨hnd, hkeep⟩

@[simp] theorem effect_nil (delta : (e : E) → R e → T → T) (t : T) : effect delta [] t = t := rfl

@[simp] theorem effect_snoc (delta : (e : E) → R e → T → T) (tr : List (Event E R)) (e : E) (r : R e)
    (t : T) : effect delta (tr ++ [⟨e, r⟩]) t = delta e r (effect delta tr t) := by
  simp [effect]

/-- A part of the shared state that threads change only while they own the lock `l`, which each of
    them takes at most once, is in every reachable system what the threads do to it when they run
    one after the other in the order in which they have taken the lock. -/
theorem shared_eq_serial (view : S → T) (hops : ops.Respects sem owner)
    (hfree : ∀ l, owner s₀ l = none) {l : L}
    {delta : (e : E) → R e → T → T}
    (hview : ∀ {i e s r s'}, sem i e s r s' → view s' = delta e r (view s))
    (hguard : ∀ {c : Config ι E R X α S} {i e k}, Reach sem (Config.init s₀ progs) c →
      c.progs i = .call e k → (∀ r t, delta e r t = t) ∨ owner c.shared l = some i)
    (honce : ∀ {c : Config ι E R X α S}, Reach sem (Config.init s₀ progs) c →
      (ops.order l c.hist).Nodup)
    (h : Reach sem (Config.init s₀ progs) c) :
    (∀ i, i ∉ ops.order l c.hist → ∀ t, effect delta (localTrace i c.hist) t = t) ∧
    view c.shared = (ops.order l c.hist).foldl
      (fun t i => effect delta (localTrace i c.hist) t) (view s₀) := by
  induction h with
  | refl => simp [Config.init]
  | @tail c _ hreach hstep ih =>
    have hnd := honce (ReflTransGen.tail hreach hstep)
    obtain ⟨hidle, hfold⟩ := ih
    cases hstep with
    | call j e k r s' hp hsem =>
      have hv : view (c.advance j e r s' (k r)).shared = delta e r (view c.shared) := hview hsem
      -- threads other than `j` have the same effect as before the step
      have hsame : ∀ (is : List ι), j ∉ is → ∀ t, is.foldl (fun t i =>
          effect delta (localTrace i (c.advance j e r s' (k r)).hist) t) t
          = is.foldl (fun t i => effect delta (localTrace i c.hist) t) t := by
        intro is hj t
        refine List.foldl_ext _ _ t fun t i hi => ?_
        have hij : i ≠ j := fun hij => hj (hij ▸ hi)
        rw [localTrace_advance_ne c hij]
      by_cases ha : ops.acquires e = some l
      · rw [order_acquire ha] at hnd ⊢
        have hj : j ∉ ops.order l c.hist := by
          intro hj
          exact (List.nodup_append.1 hnd).2.2 j hj j (List.mem_singleton_self j) rfl
        refine ⟨fun i hi t => ?_, ?_⟩
        · rw [List.mem_append, not_or, List.mem_singleton] at hi
          rw [localTrace_advance_ne c hi.2]
          exact hidle i hi.1 t
        · rw [hv, List.foldl_append, hsame _ hj, ← hfold]
          simp [hidle j hj]
      · rw [order_other ha] at hnd ⊢
        rcases hguard hreach hp with hid | hown
        · have heff : ∀ i t, effect delta (localTrace i (c.advance j e r s' (k r)).hist) t
              = effect delta (localTrace i c.hist) t := by
            intro i t
            by_cases hij : i = j
            · subst hij; rw [localTrace_advance_self, effect_snoc, hid]
            · rw [localTrace_advance_ne c hij]
          refine ⟨fun i hi t => by rw [heff]; exact hidle i hi t, ?_⟩
          rw [hv, hid, hfold]
          simp only [heff]
        · obtain ⟨pre, hpre⟩ := order_getLast_of_owner hops hfree hreach hown
          rw [hpre] at hnd hfold ⊢
          have hj : j ∉ pre := by
            intro hj
            exact (List.nodup_append.1 hnd).2.2 j hj j (List.mem_singleton_self j) rfl
          refine ⟨fun i hi t => ?_, ?_⟩
          · rw [List.mem_append, not_or, List.mem_singleton] at hi
            rw [localTrace_advance_ne c hi.2]
            refine hidle i ?_ t
            rw [hpre, List.mem_append, not_or, List.mem_singleton]
            exact hi
          · rw [hv, hfold, List.foldl_append, List.foldl_append, hsame _ hj]
            simp

end Locks

end Resumption
