import Ipvshttpd.Proofs.DestinationProofs
import Ipvshttpd.Proofs.LibipvsProofs

/-!
# Proofs: what `set_weight` does to the table

Run against a name service and a table, `set_weight` is one update of the destination that its
arguments name (`setWeight_state`). The record in the update has the forwarding method and the
thresholds that `set_weight` fills in, so an existing record is only left as it was, but for its
weight, if it has these already.
-/

namespace Ipvshttpd

open CLib Resumption Prog

variable {useNl : Bool} {libc : Libc} {rs : Resolver} {t : Table} {vip server : Str} {weight : Int}

/-- The parser returns, and it does not change the table. -/
theorem mParseService_run (useNl : Bool) (libc : Libc) (rs : Resolver) (t : Table) (buf : Str)
    (svc : Service) :
    ∃ parsed, rs.parse libc buf svc = some parsed ∧ svc.KeptBy parsed.svc ∧
      ((mParseService libc buf svc).run (kernelEnv useNl rs) t).outcome = .ok parsed ∧
      ((mParseService libc buf svc).run (kernelEnv useNl rs) t).state = t := by
  have hanswer : ∀ (e : Call) (t : Table), e.IsResolver →
      kernelEnv useNl rs e t = (rs.answer e, t) := by
    intro e t he
    cases e <;> first | rfl | exact he.elim
  obtain ⟨hstate, heval⟩ := run_of_only hanswer (mParseService_only libc buf svc) t
  obtain ⟨parsed, hout, hkept, -⟩ := mParseService_returns libc buf svc (kernelEnv useNl rs) t
  refine ⟨parsed, ?_, hkept, hout, hstate⟩
  rw [Resolver.parse, ← heval, hout]
  rfl

/-- Against a name service and a table, a run of `set_weight` asks the name service, and what it does
    after that is determined by the two parses. -/
theorem setWeight_kernel {v d : Parsed} (useNl : Bool) (t : Table)
    (hv : rs.parse libc vip blankService = some v) (hd : rs.parse libc server v.svc = some d)
    (weight : Int) :
    let rest := (if v.HasAddr then finishSetWeight v d weight
      else failWith (lit "Illegal VIP address[:port] specified.") server).run (kernelEnv useNl rs) t
    ∃ tr, (∀ ev ∈ tr, ev.1.IsResolver) ∧
      (setWeight libc vip server weight).run (kernelEnv useNl rs) t =
        ⟨tr ++ rest.trace, rest.state, rest.outcome⟩ := by
  obtain ⟨v', hv', hkept, hout, hstate⟩ := mParseService_run useNl libc rs t vip blankService
  obtain rfl : v' = v := Option.some.inj (hv'.symm.trans hv)
  obtain ⟨d', hd', -, hout', hstate'⟩ := mParseService_run useNl libc rs t server v'.svc
  obtain rfl : d' = d := Option.some.inj (hd'.symm.trans hd)
  obtain ⟨-, -, -, hcalls⟩ := mParseService_returns libc vip blankService (kernelEnv useNl rs) t
  obtain ⟨-, -, -, hcalls'⟩ := mParseService_returns libc server v'.svc (kernelEnv useNl rs) t
  have hsecond : ((mParseService libc server v'.svc).run (kernelEnv useNl rs)
      ((mParseService libc vip blankService).run (kernelEnv useNl rs) t).state).outcome = .ok d' := by
    rw [hstate]
    exact hout'
  obtain ⟨hfail, hrest⟩ := setWeight_run hout hkept hsecond weight
  rw [hstate] at hfail hrest
  rw [hstate'] at hrest
  by_cases hvip : v'.HasAddr
  · rw [if_pos hvip]
    refine ⟨_, ?_, (hrest hvip).trans (by rw [List.append_assoc])⟩
    intro ev hev
    rcases List.mem_append.1 hev with hev | hev
    · exact hcalls ev hev
    · exact hcalls' ev hev
  · rw [if_neg hvip]
    exact ⟨_, hcalls, hfail hvip⟩

theorem setWeight_state (useNl : Bool) (libc : Libc) (rs : Resolver) (t : Table) (vip server : Str)
    (weight : Int) :
    ((setWeight libc vip server weight).run (kernelEnv useNl rs) t).state =
      match named libc rs vip server with
      | none => t
      | some (svc, dest) => (kernelUpdateDest useNl t svc
          { dest with weight := weight, connFlags := ipVsConnFDroute }).2 := by
  obtain ⟨v, hv, hkept, -, -⟩ := mParseService_run useNl libc rs t vip blankService
  obtain ⟨d, hd, -, -, -⟩ := mParseService_run useNl libc rs t server v.svc
  obtain ⟨tr, -, hrun⟩ := setWeight_kernel useNl t hv hd weight
  have hvip : rs.parse libc vip
      { Service.zero with netmask := 0xffffffff, protocol := ipprotoTcp } = some v := hv
  rw [hrun]
  unfold named
  rw [hvip]
  simp only [hd]
  by_cases h1 : v.HasAddr
  · rw [if_pos h1]
    unfold finishSetWeight
    by_cases h2 : d.HasAddr
    · rw [if_neg (not_not.2 h2)]
      by_cases h3 : v.svc.port = 0
      · rw [if_pos h3, if_pos (Or.inr (Or.inr h3))]
        rfl
      · have hnamed : ¬ (v.result &&& serviceAddr = 0 ∨ d.result &&& serviceAddr = 0 ∨
            v.svc.port = 0) := by
          rintro (h | h | h)
          · exact h1 h
          · exact h2 h
          · exact h3 h
        -- the scheduler that the update names is no part of the key
        rw [if_neg h3, if_neg hnamed]
        rfl
    · rw [if_pos h2, if_pos (Or.inr (Or.inl (not_not.1 h2)))]
      rfl
  · rw [if_neg h1, if_pos (Or.inl (not_not.1 h1))]
    rfl

theorem named_thresholds {svc : Service} {dest : Dest}
    (h : named libc rs vip server = some (svc, dest)) :
    dest.uThreshold = 0 ∧ dest.lThreshold = 0 := by
  unfold named at h
  split at h
  · cases h
  · split at h
    · cases h
    · split at h
      · cases h
      · cases h
        exact ⟨rfl, rfl⟩

/-- The table after `set_weight`, record by record: the named destination has a new record if it had
    one before. -/
theorem setWeight_cases (useNl : Bool) (libc : Libc) (rs : Resolver) (t : Table) (vip server : Str)
    (weight : Int) :
    let t' := ((setWeight libc vip server weight).run (kernelEnv useNl rs) t).state
    (t' = t ∧ ∀ sk dk, namedKeys useNl libc rs vip server = some (sk, dk) →
      t.lookup sk dk = none) ∨
    ∃ sk dk, namedKeys useNl libc rs vip server = some (sk, dk) ∧ (t.lookup sk dk).isSome = true ∧
      t' = t.set sk dk ⟨ipVsConnFDroute, transmittedWeight useNl weight, 0, 0⟩ := by
  intro t'
  have hstate : t' = _ := setWeight_state useNl libc rs t vip server weight
  unfold namedKeys
  cases hnamed : named libc rs vip server with
  | none =>
    rw [hnamed] at hstate
    exact Or.inl ⟨hstate, fun sk dk h => by cases h⟩
  | some target =>
    obtain ⟨svc, dest⟩ := target
    obtain ⟨hu, hl⟩ := named_thresholds hnamed
    rw [hnamed] at hstate
    have hcmds := ipvsUpdateDest_weight useNl svc dest weight ipVsConnFDroute
    rcases kernelUpdateDest_cases useNl t svc
      { dest with weight := weight, connFlags := ipVsConnFDroute } with ⟨cmd, hcmd, happ, hk⟩ | ⟨hk, hno⟩
    · rw [hcmds, Option.map_eq_some_iff] at hcmd
      obtain ⟨cmd₀, hcmd₀, rfl⟩ := hcmd
      refine Or.inr ⟨cmd₀.service, cmd₀.dest, by simp [hcmd₀], happ, ?_⟩
      rw [hstate]
      simp only [hk]
      rw [hu, hl]
      rfl
    · refine Or.inl ⟨by rw [hstate]; simp only [hk], ?_⟩
      intro sk dk h
      rw [Option.bind_some, Option.map_eq_some_iff] at h
      obtain ⟨cmd₀, hcmd₀, hkeys⟩ := h
      have hnot := hno _ (by rw [hcmds, hcmd₀]; rfl)
      rw [Prod.mk.injEq] at hkeys
      rw [← hkeys.1, ← hkeys.2]
      simpa [SetDest.Applicable] using hnot

/-- `set_weight` changes the weight of the named destination only, exactly if the record of that
    destination says direct routing and has no thresholds: the update replaces these too. -/
theorem setWeight_sameButWeight_iff (useNl : Bool) (libc : Libc) (rs : Resolver) (t : Table)
    (vip server : Str) (weight : Int) :
    Table.SameButWeight (namedKeys useNl libc rs vip server) t
        ((setWeight libc vip server weight).run (kernelEnv useNl rs) t).state ↔
      ∀ sk dk rec, namedKeys useNl libc rs vip server = some (sk, dk) →
        t.lookup sk dk = some rec → rec.Plain := by
  rcases setWeight_cases useNl libc rs t vip server weight with
    ⟨hsame, habsent⟩ | ⟨sk, dk, hkeys, hthere, hset⟩
  · rw [hsame]
    constructor
    · intro _ sk dk rec hkeys hrec
      rw [habsent sk dk hkeys] at hrec
      cases hrec
    · exact fun _ => ⟨fun _ => rfl, fun _ _ _ => rfl, fun _ _ _ => rfl⟩
  · obtain ⟨rec, hrec⟩ := Option.isSome_iff_exists.1 hthere
    have hafter : (t.set sk dk ⟨ipVsConnFDroute, transmittedWeight useNl weight, 0, 0⟩).lookup sk dk =
        some ⟨ipVsConnFDroute, transmittedWeight useNl weight, 0, 0⟩ := by
      rw [Table.lookup_set_self, hrec]
      rfl
    rw [hset]
    constructor
    · intro h sk' dk' rec' hkeys' hrec'
      rw [hkeys, Option.some.injEq, Prod.mk.injEq] at hkeys'
      obtain ⟨rfl, rfl⟩ := hkeys'
      have hrest := h.rest sk dk hkeys
      rw [hafter, hrec'] at hrest
      simp only [Option.map_some, Record.exceptWeight, Option.some.injEq, Prod.mk.injEq] at hrest
      exact ⟨hrest.1.symm, hrest.2.1.symm, hrest.2.2.symm⟩
    · intro hplain
      obtain ⟨hfwd, hu, hl⟩ := hplain sk dk rec hkeys hrec
      refine ⟨fun sk' => Table.set_isSome _ _ _ _ _, ?_, ?_⟩
      · intro sk' dk' hne
        refine Table.lookup_set_ne _ fun heq => hne ?_
        rw [hkeys, heq]
      · intro sk' dk' hkeys'
        rw [hkeys, Option.some.injEq, Prod.mk.injEq] at hkeys'
        obtain ⟨rfl, rfl⟩ := hkeys'
        rw [hafter, hrec]
        simp [Record.exceptWeight, hfwd, hu, hl]

/-- A destination reached by masquerading, with thresholds, is switched to direct routing and loses
    its thresholds. -/
theorem setWeight_switches_forwarding :
    let libc : Libc := ⟨fun _ => none, fun name =>
      if name = lit "10.0.0.1" then some 0x0100000a
      else if name = lit "10.0.0.2" then some 0x0200000a else none⟩
    let t : Table := fun sk =>
      if sk = .address ipprotoTcp (.v4 0x0100000a) (htons 80) then
        some fun dk => if dk = ⟨.v4 0x0200000a, htons 8080⟩ then some ⟨0, 1, 100, 50⟩ else none
      else none
    ¬ Table.SameButWeight (namedKeys true libc .empty (lit "10.0.0.1:80") (lit "10.0.0.2:8080")) t
      ((setWeight libc (lit "10.0.0.1:80") (lit "10.0.0.2:8080") 4).run (kernelEnv true .empty)
        t).state := by
  intro libc t h
  have hrest := h.rest (.address ipprotoTcp (.v4 0x0100000a) (htons 80)) ⟨.v4 0x0200000a, htons 8080⟩
    (by decide)
  have hne : ¬ (((setWeight libc (lit "10.0.0.1:80") (lit "10.0.0.2:8080") 4).run
      (kernelEnv true .empty) t).state.lookup (.address ipprotoTcp (.v4 0x0100000a) (htons 80))
      ⟨.v4 0x0200000a, htons 8080⟩).map Record.exceptWeight = some (0, 100, 50) := by decide
  exact hne hrest

end Ipvshttpd
