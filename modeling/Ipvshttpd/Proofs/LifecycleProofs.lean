import Mathlib.Data.List.Count
import Mathlib.Data.List.Infix
import Ipvshttpd.Lifecycle

/-!
# Proofs: the life of the server object

Without signals every step keeps an invariant (`step_keeps`) that says which objects exist and which
of them have been deleted, so every run without signals is proper. A signal deletes the object whose
`run()` is executing.
-/

namespace Ipvshttpd.HttpServer

open CLib

variable {s s' : HttpServer} {i : ServerInput} {is : List ServerInput}

/-! ## Events -/

@[simp] theorem emit_events (s : HttpServer) (evs : List ServerEvent) :
    (s.emit evs).events = s.events ++ evs := rfl

@[simp] theorem emit_mServer (s : HttpServer) (evs : List ServerEvent) :
    (s.emit evs).mServer = s.mServer := rfl

@[simp] theorem emit_allocated (s : HttpServer) (evs : List ServerEvent) :
    (s.emit evs).allocated = s.allocated := rfl

@[simp] theorem emit_running (s : HttpServer) (evs : List ServerEvent) :
    (s.emit evs).running = s.running := rfl

@[simp] theorem emit_armed (s : HttpServer) (evs : List ServerEvent) :
    (s.emit evs).armed = s.armed := rfl

@[simp] theorem emit_destroyed (s : HttpServer) (evs : List ServerEvent) :
    (s.emit evs).destroyed = s.destroyed := rfl

/-- More events keep the order of deletions right, if they delete only objects whose `run()` has
    returned before. -/
theorem freedAfterReturn_append {evs news : List ServerEvent} (h : FreedAfterReturn evs)
    (hnews : ∀ id, .free id ∈ news → .returned id ∈ evs) : FreedAfterReturn (evs ++ news) := by
  intro id pre post heq
  rcases List.append_eq_append_iff.1 heq with ⟨mid, hpre, hmid⟩ | ⟨mid, hevs, hmid⟩
  · have hfree : .free id ∈ news := by
      rw [hmid]
      exact List.mem_append_right _ (List.mem_cons_self ..)
    rw [hpre]
    exact List.mem_append_left _ (hnews id hfree)
  · cases mid with
    | nil =>
      have hfree : .free id ∈ news := by
        rw [← List.nil_append news, ← hmid]
        exact List.mem_cons_self ..
      have hreturned := hnews id hfree
      rwa [hevs, List.append_nil] at hreturned
    | cons ev mid =>
      rw [List.cons_append, List.cons.injEq] at hmid
      exact h id pre mid (by rw [hevs, ← hmid.1])

/-! ## The invariant -/

/-- What holds as long as no signal has been delivered. -/
structure Tracked (s : HttpServer) : Prop where
  alloc_iff : ∀ id, .alloc id ∈ s.events ↔ id < s.allocated
  free_count : ∀ id,
    s.events.count (.free id) = if id < s.allocated ∧ s.mServer ≠ some id then 1 else 0
  afterReturn : FreedAfterReturn s.events
  returned_lt : ∀ id, .returned id ∈ s.events → id < s.allocated
  current : ∀ id, s.mServer = some id →
    id < s.allocated ∧ (s.running = some id ∨ .returned id ∈ s.events)
  running : ∀ id, s.running = some id →
    s.mServer = some id ∧ s.armed = true ∧ .returned id ∉ s.events
  destroyed : s.destroyed = true → s.mServer = none

theorem tracked_new : Tracked new where
  alloc_iff := by simp [new]
  free_count := by simp [new]
  afterReturn := by simp [new, FreedAfterReturn]
  returned_lt := by simp [new]
  current := by simp [new]
  running := by simp [new]
  destroyed := by simp [new]

theorem Tracked.properLife (h : Tracked s) : ProperLife s where
  once id := by
    rw [h.free_count]
    split <;> omega
  afterReturn := h.afterReturn
  live := by
    constructor
    · intro hsome
      obtain ⟨id, hid⟩ := Option.ne_none_iff_exists'.1 hsome
      refine ⟨id, (h.alloc_iff id).2 (h.current id hid).1, ?_⟩
      rw [← List.count_eq_zero, h.free_count, if_neg]
      rintro ⟨-, hne⟩
      exact hne hid
    · rintro ⟨id, halloc, hfree⟩ hnone
      have hcount := h.free_count id
      rw [List.count_eq_zero.2 hfree, if_pos] at hcount
      · omega
      · exact ⟨(h.alloc_iff id).1 halloc, by simp [hnone]⟩
  noLeak hd id halloc := by
    rw [h.free_count, if_pos]
    exact ⟨(h.alloc_iff id).1 halloc, by simp [h.destroyed hd]⟩

theorem Tracked.emit_log (h : Tracked s) (c : LogCall) : Tracked (s.emit [.log c]) where
  alloc_iff id := by simpa using h.alloc_iff id
  free_count id := by
    show (s.events ++ [ServerEvent.log c]).count (ServerEvent.free id) =
      if id < s.allocated ∧ s.mServer ≠ some id then 1 else 0
    rw [List.count_append, h.free_count]
    simp
  afterReturn := freedAfterReturn_append h.afterReturn (by simp)
  returned_lt id hid := h.returned_lt id (by simpa using hid)
  current id hid := by simpa using h.current id hid
  running id hid := by simpa using h.running id hid
  destroyed := h.destroyed

theorem Tracked.stop (h : Tracked s) (hrun : s.running = none) : Tracked s.stop := by
  unfold HttpServer.stop
  cases hm : s.mServer with
  | none => exact h
  | some id =>
    obtain ⟨hlt, hreturned⟩ := h.current id hm
    have hret : .returned id ∈ s.events := by simpa [hrun] using hreturned
    refine ⟨fun id' => ?_, fun id' => ?_, ?_, fun id' => ?_, ?_, ?_, fun _ => rfl⟩
    · simpa [emit] using h.alloc_iff id'
    · have hcount := h.free_count id'
      rw [hm] at hcount
      by_cases hid : id' = id
      · subst hid
        simp [emit, hcount, hlt]
      · have hne : some id ≠ some id' := fun he => hid (Option.some.inj he).symm
        simp only [hne, ne_eq, not_false_eq_true, and_true] at hcount
        simp [emit, hcount, Ne.symm hid]
    · refine freedAfterReturn_append h.afterReturn ?_
      intro id' hfree
      have hid : id' = id := by simpa using hfree
      rw [hid]
      exact hret
    · intro hmem
      exact h.returned_lt id' (by simpa [emit] using hmem)
    · intro id' hid
      cases hid
    · intro id' hid
      rw [show (s.emit _).running = s.running from rfl, hrun] at hid
      cases hid

@[simp] theorem stop_destroyed (s : HttpServer) : s.stop.destroyed = s.destroyed := by
  unfold HttpServer.stop
  split <;> rfl

@[simp] theorem stop_mServer (s : HttpServer) : s.stop.mServer = none := by
  unfold HttpServer.stop
  split
  · assumption
  · rfl

theorem Tracked.create (h : Tracked s) (hm : s.mServer = none) (hd : s.destroyed = false) :
    Tracked s.create where
  alloc_iff id := by
    simp only [HttpServer.create, emit_events, List.mem_append, h.alloc_iff]
    simp
    omega
  free_count id := by
    have hcount := h.free_count id
    simp only [hm, ne_eq, reduceCtorEq, not_false_eq_true, and_true] at hcount
    by_cases hid : id = s.allocated
    · subst hid
      simp [HttpServer.create, hcount]
    · have hlt : id < s.allocated + 1 ↔ id < s.allocated := by omega
      simp [HttpServer.create, hcount, hlt, Ne.symm hid]
  afterReturn := freedAfterReturn_append h.afterReturn (by simp)
  returned_lt id hid := by
    have hlt := h.returned_lt id (by simpa [HttpServer.create] using hid)
    exact Nat.lt_succ_of_lt hlt
  current id hid := by
    have hid' : s.allocated = id := by simpa [HttpServer.create] using hid
    simp [HttpServer.create, hid']
  running id hid := by
    have hid' : s.allocated = id := by simpa [HttpServer.create] using hid
    have hnot : .returned id ∉ s.events := fun hr => by
      have hlt := h.returned_lt id hr
      omega
    simp [HttpServer.create, hid', hnot]
  destroyed hdes := by
    have hdes' : s.destroyed = true := hdes
    rw [hd] at hdes'
    cases hdes'

theorem Tracked.start (h : Tracked s) (hrun : s.running = none) (hd : s.destroyed = false)
    (cond : StartConditions) : Tracked (s.start cond) := by
  have hstop := h.stop hrun
  have hd' : s.stop.destroyed = false := by rw [stop_destroyed, hd]
  unfold HttpServer.start
  split
  · dsimp only
    split
    · split
      · exact (hstop.emit_log _).create (stop_mServer s) hd'
      · exact hstop.emit_log _
    · exact hstop.create (stop_mServer s) hd'
  · exact h

theorem Tracked.runReturns {id : Nat} (h : Tracked s) (hrun : s.running = some id) :
    Tracked { s.emit [.returned id] with running := none, armed := false } where
  alloc_iff id' := by simpa using h.alloc_iff id'
  free_count id' := by
    show (s.events ++ [ServerEvent.returned id]).count (ServerEvent.free id') =
      if id' < s.allocated ∧ s.mServer ≠ some id' then 1 else 0
    rw [List.count_append, h.free_count]
    simp
  afterReturn := freedAfterReturn_append h.afterReturn (by simp)
  returned_lt id' hid := by
    rcases List.mem_append.1 hid with hmem | hmem
    · exact h.returned_lt id' hmem
    · have hid' : id' = id := by simpa using hmem
      rw [hid']
      exact (h.current id (h.running id hrun).1).1
  current id' hid := by
    obtain ⟨hlt, hor⟩ := h.current id' hid
    refine ⟨hlt, Or.inr ?_⟩
    rcases hor with hr | hr
    · rw [hrun] at hr
      simp [Option.some.inj hr]
    · simp [hr]
  running id' hid := by cases hid
  destroyed := h.destroyed

/-- Every step but the delivery of a signal keeps the invariant. -/
theorem step_keeps (h : Tracked s) (hstep : s.step i = some s') (hi : i ≠ .signal) :
    Tracked s' := by
  cases i with
  | start cond =>
    simp only [step, Option.ite_none_right_eq_some, Option.some.injEq, Bool.not_eq_true] at hstep
    obtain ⟨⟨hrun, hd⟩, rfl⟩ := hstep
    exact h.start hrun hd cond
  | stop =>
    simp only [step, Option.ite_none_right_eq_some, Option.some.injEq] at hstep
    obtain ⟨⟨hrun, -⟩, rfl⟩ := hstep
    exact h.stop hrun
  | destroy =>
    simp only [step, Option.ite_none_right_eq_some, Option.some.injEq] at hstep
    obtain ⟨⟨hrun, -⟩, rfl⟩ := hstep
    have hstop := h.stop hrun
    exact ⟨hstop.alloc_iff, hstop.free_count, hstop.afterReturn, hstop.returned_lt, hstop.current,
      hstop.running, fun _ => stop_mServer s⟩
  | runReturns =>
    simp only [step] at hstep
    cases hrun : s.running with
    | none => simp [hrun] at hstep
    | some id =>
      rw [hrun] at hstep
      rw [← Option.some.inj hstep]
      exact h.runReturns hrun
  | signal => exact absurd rfl hi

/-- Without a signal the invariant holds in every state reached. -/
theorem run_keeps (h : Tracked s) (hrun : s.run is = some s') (his : .signal ∉ is) : Tracked s' := by
  induction is generalizing s with
  | nil =>
    rw [← Option.some.inj hrun]
    exact h
  | cons i is ih =>
    rw [List.mem_cons, not_or] at his
    rw [run, Option.bind_eq_some_iff] at hrun
    obtain ⟨s₁, hstep, hrest⟩ := hrun
    exact ih (step_keeps h hstep (Ne.symm his.1)) hrest his.2

/-! ## Signals -/

/-- A first signal deletes an object whose `run()` has not returned. -/
theorem signal_not_proper (h : Tracked s) (hstep : s.step .signal = some s') : ¬ ProperLife s' := by
  intro hproper
  cases hrun : s.running with
  | none => simp [step, hrun] at hstep
  | some id =>
    obtain ⟨hm, harmed, hnot⟩ := h.running id hrun
    have hs' : s' = { s.stop with armed := false } := by
      simpa [step, hrun, harmed] using hstep.symm
    have hevents : s'.events = (s.events ++ [.log (.message (lit "Server stop.")), .halt id]) ++
        .free id :: [] := by
      rw [hs']
      simp [HttpServer.stop, hm]
    have hmem := hproper.afterReturn id _ _ hevents
    rw [List.mem_append] at hmem
    rcases hmem with hmem | hmem
    · exact hnot hmem
    · simp at hmem

theorem run_append (s : HttpServer) (is is' : List ServerInput) :
    s.run (is ++ is') = (s.run is).bind (run · is') := by
  induction is generalizing s with
  | nil => rfl
  | cons i is ih =>
    rw [List.cons_append, run, run]
    cases s.step i with
    | none => rfl
    | some s₁ => exact ih s₁

/-- The life of all objects is proper in every state of a run exactly if no signal is delivered in
    it: a run ends with `delete` after `run()`, or with a signal, whose handler calls `stop` inside
    `run()`. -/
theorem properLife_iff (is : List ServerInput) {s : HttpServer} (h : new.run is = some s) :
    (∀ is' s', is' <+: is → new.run is' = some s' → ProperLife s') ↔ .signal ∉ is := by
  constructor
  · intro hall hmem
    obtain ⟨before, after, rfl, hfirst⟩ := List.eq_append_cons_of_mem hmem
    rw [run_append, Option.bind_eq_some_iff] at h
    obtain ⟨s₁, hbefore, hrest⟩ := h
    rw [run, Option.bind_eq_some_iff] at hrest
    obtain ⟨s₂, hstep, -⟩ := hrest
    have hrun : new.run (before ++ [.signal]) = some s₂ := by
      rw [run_append, hbefore]
      simp [run, hstep]
    have hpre : before ++ [.signal] <+: before ++ .signal :: after := by simp
    exact signal_not_proper (run_keeps tracked_new hbefore hfirst) hstep (hall _ _ hpre hrun)
  · intro hno is' s' hpre hrun
    exact (run_keeps tracked_new hrun fun hmem => hno (hpre.subset hmem)).properLife

/-- The server is started, stopped after its `run()` has returned, and destroyed. -/
theorem properLife_iff_sample :
    let is : List ServerInput := [.start ⟨true, false, false⟩, .runReturns, .stop, .destroy]
    (∀ is' s', is' <+: is → new.run is' = some s' → ProperLife s') ↔ .signal ∉ is :=
  properLife_iff [.start ⟨true, false, false⟩, .runReturns, .stop, .destroy] rfl

/-- A signal while the server runs: its object is deleted, and `run()` has not returned. -/
theorem signal_frees_running_server :
    ∃ s, new.run [.start ⟨true, false, false⟩, .signal] = some s ∧ ¬ ProperLife s := by
  refine ⟨_, rfl, fun hproper => ?_⟩
  have hmem := hproper.afterReturn 0 [.alloc 0, .log (.message (lit "Server start.")), .run 0,
    .log (.message (lit "Server stop.")), .halt 0] [] rfl
  simp at hmem

end Ipvshttpd.HttpServer
