import Ipvshttpd.Proofs.NamingProofs
import Ipvshttpd.Proofs.ThreadsProofs

/-!
# Proofs: replies agree with the kernel

In every schedule the calls of a handler determine a coherent state of the protocol
(`Server.Reached.tracks`). The critical sections serialize, so the table is what the updates make of
it one after the other in lock order, and an update is in force exactly if its handler has replied ok
(`weight_serial`). Every update is the one that the request of its handler names. A race of three
handlers shows all of this at once.
-/

namespace Ipvshttpd

open CLib Resumption Prog

variable {ι : Type} [DecidableEq ι]
variable {useNl : Bool} {jc : Jsoncpp} {libc : Libc} {config : ConfigurationManager} {t : Table}
variable {req : ι → Request} {c : Server ι} {w : Option Int} {q : Progress} {tr : List CallEvent}

/-! ## Weights -/

/-- The weight that an admitted request asks for is an `int`. -/
theorem requestedWeight_range {body : Str} {n : Int} (h : requestedWeight jc config body = some n) :
    Value.minInt ≤ n ∧ n ≤ Value.maxInt := by
  unfold requestedWeight at h
  cases hv : verdict jc config body with
  | grant hostname kernels =>
    obtain ⟨ms, -, hadmits, -, rfl⟩ := verdict_grant hv
    obtain ⟨n', hn', hrange⟩ := Value.asInt_of_isInt hadmits.2.2
    have hn : n' = n := by simpa [hv, hn', Except.toOption] using h
    rwa [← hn]
  | reject message status => simp [hv] at h
  | abort x => simp [hv] at h

/-- An `int` arrives in the kernel as it is. -/
theorem transmittedWeight_int (useNl : Bool) {n : Int} (h : Value.minInt ≤ n ∧ n ≤ Value.maxInt) :
    transmittedWeight useNl n = n := by
  obtain ⟨hmin, hmax⟩ := h
  unfold Value.minInt at hmin
  unfold Value.maxInt at hmax
  cases useNl with
  | false => rfl
  | true =>
    show (BitVec.ofInt 32 n).toInt = n
    rw [BitVec.toInt_ofInt]
    refine Int.bmod_eq_of_le ?_ ?_
    · omega
    · omega

theorem ipvsUpdateDest_recordWeight {svc : Service} {dest : Dest} {cmd : SetDest}
    (h : ipvsUpdateDest useNl svc dest = some cmd) :
    cmd.record.weight = transmittedWeight useNl dest.weight := by
  unfold ipvsUpdateDest at h
  cases useNl with
  | true =>
    rw [if_pos rfl, Option.some.injEq] at h
    rw [← h]
    rfl
  | false =>
    rw [if_neg Bool.false_ne_true, Option.ite_none_right_eq_some, Option.some.injEq] at h
    rw [← h.2]
    rfl

/-! ## The table -/

theorem callSem_table {i : ι} {e : Call} {s s' : Shared ι} {r : Call.Answer e}
    (h : callSem useNl i e s r s') : s'.table = tableDelta useNl e r s.table := by
  cases e with
  | updateDest svc dest =>
    rcases h with ⟨hr, cmd, hcmd, -, rfl⟩ | ⟨hr, rfl⟩
    · simp [tableDelta, updatedTable, hr, hcmd]
    · simp [tableDelta, updatedTable, hr]
  | lock m =>
    obtain ⟨-, rfl⟩ := h
    rfl
  | unlock m =>
    have hs' : s' = { s with owner := Function.update s.owner m none } := h
    rw [hs']
    rfl
  | _ =>
    have hs' : s' = s := h
    rw [hs']
    rfl

/-- Updates neither create nor remove destinations. -/
theorem updatedTable_isSome (useNl : Bool) (svc : Service) (dest : Dest) (r : Int) (t : Table)
    (sk : ServiceKey) (dk : DestKey) :
    ((updatedTable useNl svc dest r t).lookup sk dk).isSome = (t.lookup sk dk).isSome := by
  unfold updatedTable
  split
  · split
    · rename_i cmd _
      by_cases hkey : (sk, dk) = (cmd.service, cmd.dest)
      · rw [Prod.mk.injEq] at hkey
        rw [hkey.1, hkey.2, SetDest.apply, Table.lookup_set_self, Option.isSome_map]
      · rw [SetDest.apply, Table.lookup_set_ne _ hkey]
    · rfl
  · rfl

theorem tableDelta_isSome (useNl : Bool) (e : Call) (r : Call.Answer e) (t : Table) (sk : ServiceKey)
    (dk : DestKey) : ((tableDelta useNl e r t).lookup sk dk).isSome = (t.lookup sk dk).isSome := by
  cases e with
  | updateDest svc dest => exact updatedTable_isSome useNl svc dest r t sk dk
  | _ => rfl

/-- The destinations of the table are the same in every schedule. -/
theorem Server.Reached.lookup_isSome (h : c.Reached useNl jc libc config t req) (sk : ServiceKey)
    (dk : DestKey) : (c.shared.table.lookup sk dk).isSome = (t.lookup sk dk).isSome := by
  induction h with
  | refl => rfl
  | tail _ hstep ih =>
    cases hstep with
    | call i e k r s' hp hs =>
      show (s'.table.lookup sk dk).isSome = _
      rw [callSem_table hs, tableDelta_isSome, ih]

/-! ## Handlers -/

/-- In every schedule the calls of a handler determine a coherent state of the protocol, which what
    it has still to do continues. -/
theorem Server.Reached.tracks (h : c.Reached useNl jc libc config t req) (i : ι) :
    ∃ q : Progress, q.Coherent ∧
      Tracks useNl (requestedWeight jc config (req i).body) (localTrace i c.hist) q ∧
      (c.progs i).wp (protocol (requestedWeight jc config (req i).body))
        (fun q _ => q.holding = none ∧ q.summary.replies.length = 1) (fun _ _ => True) q := by
  have hwp := handlePostRequest_protocol jc libc config (req i).conn (req i).body
  have hkeep := wp_steps_keep (I := fun tr q => q.Coherent ∧
    Tracks useNl (requestedWeight jc config (req i).body) tr q) ?_ (reach_steps h i) hwp
    ⟨coherent_init, tracks_init useNl _⟩
  · refine ⟨_, hkeep.1, hkeep.2, ?_⟩
    exact wp_mono (fun _ _ hpost => hpost.1) (fun _ _ _ => trivial) (reach_wp h hwp)
  · intro tr q e r hq hallow
    exact ⟨hq.1.next hallow r, hq.2.next hallow r⟩

/-- A handler inside `set_weight` owns the mutex. -/
theorem Server.Reached.owner_of_inside (h : c.Reached useNl jc libc config t req) {i : ι}
    (hin : insideSetWeight (localTrace i c.hist) = true) : c.shared.owner .ipvs = some i := by
  obtain ⟨q, hq, htracks, -⟩ := h.tracks i
  have hheld := (hq.inside (htracks.inside.trans hin)).1
  rw [h.owner_iff, htracks.held]
  simp [hheld]

theorem Tracks.succeeded_iff (h : Tracks useNl w tr q) : UpdateSucceeded tr ↔ q.Succeeded := by
  constructor
  · rintro ⟨svc, dest, hmem⟩
    exact ⟨svc, dest, (h.update_iff svc dest 0).1 hmem⟩
  · rintro ⟨svc, dest, hsome⟩
    exact ⟨svc, dest, (h.update_iff svc dest 0).2 hsome⟩

theorem Tracks.reply_fits (h : Tracks useNl w tr q) (hq : q.Coherent) {reply : Reply}
    (hmem : reply ∈ (summarize tr).replies) :
    (reply = okReply ∧ UpdateSucceeded tr) ∨
      ((∃ message status, status ≠ .ok ∧
        reply = ⟨some status, responseHeaders, errorText message⟩) ∧ ¬ UpdateSucceeded tr) := by
  rw [← h.summary] at hmem
  obtain ⟨status, text, rfl, hfits, hok⟩ := hq.replies reply hmem
  rw [h.succeeded_iff]
  rcases hfits with ⟨rfl, rfl⟩ | ⟨hne, message, rfl⟩
  · exact Or.inl ⟨rfl, hok.1 rfl⟩
  · exact Or.inr ⟨⟨message, status, hne, rfl⟩, fun hsucc => hne (hok.2 hsucc)⟩

theorem Tracks.repliedOk_iff (h : Tracks useNl w tr q) (hq : q.Coherent)
    (hne : (summarize tr).replies ≠ []) : RepliedOk tr ↔ UpdateSucceeded tr := by
  constructor
  · intro hok
    rcases h.reply_fits hq hok with ⟨-, hsucc⟩ | ⟨⟨message, status, hstatus, heq⟩, -⟩
    · exact hsucc
    · have hs : some Status.ok = some status := congrArg Reply.status heq
      exact absurd (Option.some.inj hs).symm hstatus
  · intro hsucc
    obtain ⟨reply, hmem⟩ := List.exists_mem_of_ne_nil _ hne
    rcases h.reply_fits hq hmem with ⟨rfl, -⟩ | ⟨-, hfailed⟩
    · exact hmem
    · exact absurd hsucc hfailed

theorem Tracks.repliedError_iff (h : Tracks useNl w tr q) (hq : q.Coherent)
    (hne : (summarize tr).replies ≠ []) : RepliedError tr ↔ ¬ UpdateSucceeded tr := by
  constructor
  · rintro ⟨message, status, hstatus, hmem⟩
    rcases h.reply_fits hq hmem with ⟨heq, -⟩ | ⟨-, hfailed⟩
    · have hs : some status = some Status.ok := congrArg Reply.status heq
      exact absurd (Option.some.inj hs) hstatus
    · exact hfailed
  · intro hfailed
    obtain ⟨reply, hmem⟩ := List.exists_mem_of_ne_nil _ hne
    rcases h.reply_fits hq hmem with ⟨-, hsucc⟩ | ⟨⟨message, status, hstatus, rfl⟩, -⟩
    · exact absurd hsucc hfailed
    · exact ⟨message, status, hstatus, hmem⟩

/-- A handler whose update has not succeeded has changed nothing. -/
theorem Server.Reached.table_of_failed (h : c.Reached useNl jc libc config t req) {i : ι}
    (hfailed : ¬ UpdateSucceeded (localTrace i c.hist)) {en : Entry ι Call Call.Answer (Shared ι)}
    (hen : en ∈ c.hist) (htid : en.tid = i) : en.post.table = en.pre.table := by
  obtain ⟨-, hsem⟩ := hist_step h hen
  have hmem := mem_localTrace hen
  obtain ⟨tid, ⟨e, r⟩, pre, post⟩ := en
  dsimp only at htid hsem hmem ⊢
  rw [callSem_table hsem]
  cases e with
  | updateDest svc dest =>
    have hr : r ≠ (0 : Int) := by
      rintro rfl
      rw [htid] at hmem
      exact hfailed ⟨svc, dest, hmem⟩
    simp [tableDelta, updatedTable, hr]
  | _ => rfl

/-- The destination of an update that has succeeded has been in the table from the beginning. -/
theorem Server.Reached.applicable_of_succeeded (h : c.Reached useNl jc libc config t req) {i : ι}
    {svc : Service} {dest : Dest}
    (hmem : (⟨.updateDest svc dest, (0 : Int)⟩ : CallEvent) ∈ localTrace i c.hist) :
    ∃ cmd, ipvsUpdateDest useNl svc dest = some cmd ∧ cmd.Applicable t := by
  obtain ⟨en, hen, hev⟩ := List.mem_map.1 hmem
  have hin := (List.mem_filter.1 hen).1
  obtain ⟨⟨c₁, hreach, hpre⟩, hsem⟩ := hist_step h hin
  obtain ⟨tid, ev, pre, post⟩ := en
  dsimp only at hev hsem hpre
  subst hev
  rcases hsem with ⟨-, cmd, hcmd, happ, -⟩ | ⟨hr, -⟩
  · have hsame := Server.Reached.lookup_isSome hreach cmd.service cmd.dest
    refine ⟨cmd, hcmd, ?_⟩
    unfold SetDest.Applicable at happ ⊢
    rwa [← hsame, hpre]
  · exact absurd rfl hr

/-! ## The order of the critical sections -/

theorem Server.Reached.order_nodup (h : c.Reached useNl jc libc config t req) :
    (mutexOps.order .ipvs c.hist).Nodup := by
  refine (Resumption.order_nodup
    (M := fun i => protocol (requestedWeight jc config (req i).body)) (q := fun _ => .init)
    (fun i => handlePostRequest_protocol jc libc config (req i).conn (req i).body)
    (F := fun q => q.taken = false) ?_ ?_ ?_ h).1
  · intro i q e hallow ha
    cases e with
    | lock m => exact hallow.2 (Option.some.inj ha)
    | _ => cases ha
  · intro i q e r hallow ha
    cases e with
    | lock m =>
      have hm : m = .ipvs := Option.some.inj ha
      simp [protocol, hm]
    | _ => cases ha
  · intro i q e r hallow htaken
    cases e with
    | lock m =>
      have htaken' : q.taken = true := by simpa using htaken
      simp [protocol, htaken']
    | _ => exact htaken

/-- The table is what the handlers make of it one after the other in the order in which they have
    taken the mutex. -/
theorem Server.Reached.table_eq (h : c.Reached useNl jc libc config t req) :
    c.shared.table = (mutexOps.order .ipvs c.hist).foldl
      (fun t i => effect (tableDelta useNl) (localTrace i c.hist) t) t := by
  refine (shared_eq_serial Shared.table (callSem_respects useNl) (fun _ => rfl) callSem_table ?_
    (fun hreach => Server.Reached.order_nodup hreach) h).2
  intro c' i e k hreach hp
  cases e with
  | updateDest svc dest =>
    obtain ⟨q, -, htracks, hwp⟩ := Server.Reached.tracks hreach i
    rw [hp] at hwp
    exact Or.inr (Server.Reached.owner_of_inside hreach (htracks.inside.symm.trans hwp.1.1))
  | _ => exact Or.inl fun _ _ => rfl

/-- When the mutex is free, an update has succeeded exactly if its handler has replied ok. -/
theorem Server.Reached.repliedOk_of_succeeded (h : c.Reached useNl jc libc config t req)
    (hfree : c.shared.owner .ipvs = none) {i : ι} (hsucc : UpdateSucceeded (localTrace i c.hist)) :
    RepliedOk (localTrace i c.hist) := by
  obtain ⟨q, hq, htracks, -⟩ := h.tracks i
  have htaken : q.taken = true := by
    obtain ⟨svc, dest, hsome⟩ := htracks.succeeded_iff.1 hsucc
    exact hq.update (by rw [hsome]; simp)
  rcases hq.released htaken with hheld | hne
  · have howner : c.shared.owner .ipvs = some i := by
      rw [h.owner_iff, htracks.held]
      simp [hheld]
    rw [hfree] at howner
    cases howner
  · rw [htracks.summary] at hne
    exact (htracks.repliedOk_iff hq hne).2 hsucc

/-- While the mutex is free, a handler has replied ok and carried out one command with the weight that
    its request asks for, or it has not replied ok and changed nothing. -/
theorem Server.Reached.effect_cases (h : c.Reached useNl jc libc config t req)
    (hfree : c.shared.owner .ipvs = none) (i : ι) :
    (RepliedOk (localTrace i c.hist) ∧ ∃ cmd : SetDest,
      addressed useNl (localTrace i c.hist) = some (cmd.service, cmd.dest) ∧ cmd.Applicable t ∧
      requestedWeight jc config (req i).body = some cmd.record.weight ∧
      ∀ t', effect (tableDelta useNl) (localTrace i c.hist) t' = cmd.apply t') ∨
    (¬ RepliedOk (localTrace i c.hist) ∧
      ∀ t', effect (tableDelta useNl) (localTrace i c.hist) t' = t') := by
  obtain ⟨q, hq, htracks, -⟩ := h.tracks i
  by_cases hsucc : UpdateSucceeded (localTrace i c.hist)
  · obtain ⟨svc, dest, hmem⟩ := id hsucc
    have hupdate : q.update = some (svc, dest, 0) := (htracks.update_iff svc dest 0).1 hmem
    obtain ⟨cmd, hcmd, happ⟩ := h.applicable_of_succeeded hmem
    have hweight := htracks.weight svc dest 0 hupdate
    have hrecord : cmd.record.weight = dest.weight := by
      rw [ipvsUpdateDest_recordWeight hcmd]
      exact transmittedWeight_int useNl (requestedWeight_range hweight.symm)
    refine Or.inl ⟨h.repliedOk_of_succeeded hfree hsucc, cmd, ?_, happ, ?_, fun t' => ?_⟩
    · rw [htracks.target, hupdate]
      simp [hcmd]
    · rw [← hweight, hrecord]
    · rw [htracks.table, hupdate]
      simp [updatedTable, hcmd]
  · refine Or.inr ⟨fun hok => ?_, fun t' => ?_⟩
    · have hne : (summarize (localTrace i c.hist)).replies ≠ [] := List.ne_nil_of_mem hok
      exact hsucc ((htracks.repliedOk_iff hq hne).1 hok)
    · rw [htracks.table]
      cases hupdate : q.update with
      | none => rfl
      | some u =>
        obtain ⟨svc, dest, r⟩ := u
        have hr : r ≠ 0 := by
          rintro rfl
          exact hsucc (htracks.succeeded_iff.2 ⟨svc, dest, hupdate⟩)
        simp [updatedTable, hr]

/-- The weight of a destination after the critical sections of `is`, one after the other: that of the
    last request for it that was replied ok. -/
theorem weight_serial (h : c.Reached useNl jc libc config t req)
    (hfree : c.shared.owner .ipvs = none) (sk : ServiceKey) (dk : DestKey) (is : List ι) :
    ((is.foldl (fun t i => effect (tableDelta useNl) (localTrace i c.hist) t) t).lookup sk dk).isSome =
        (t.lookup sk dk).isSome ∧
    ((is.foldl (fun t i => effect (tableDelta useNl) (localTrace i c.hist) t) t).lookup sk dk).map
        Record.weight =
      match (is.filter fun i => decide (RepliedOk (localTrace i c.hist)) &&
        decide (addressed useNl (localTrace i c.hist) = some (sk, dk))).getLast? with
      | some i => requestedWeight jc config (req i).body
      | none => (t.lookup sk dk).map Record.weight := by
  induction is using List.reverseRecOn with
  | nil => exact ⟨rfl, rfl⟩
  | append_singleton is i ih =>
    obtain ⟨hsome, hweight⟩ := ih
    rw [List.foldl_append, List.foldl_cons, List.foldl_nil, List.filter_append]
    generalize is.foldl (fun t i => effect (tableDelta useNl) (localTrace i c.hist) t) t = t' at *
    rcases h.effect_cases hfree i with ⟨hok, cmd, htarget, happ, hreq, heff⟩ | ⟨hno, heff⟩
    · rw [heff]
      by_cases hkey : (sk, dk) = (cmd.service, cmd.dest)
      · -- the destination is the one that the handler has updated
        have hlast : [i].filter (fun i => decide (RepliedOk (localTrace i c.hist)) &&
            decide (addressed useNl (localTrace i c.hist) = some (sk, dk))) = [i] := by
          simp [hok, htarget, hkey]
        rw [hlast, List.getLast?_concat]
        rw [Prod.mk.injEq] at hkey
        obtain ⟨rfl, rfl⟩ := hkey
        obtain ⟨rec, hrec⟩ := Option.isSome_iff_exists.1 (hsome.trans happ)
        rw [SetDest.apply, Table.lookup_set_self, Option.isSome_map]
        refine ⟨hsome, ?_⟩
        rw [hrec]
        exact hreq.symm
      · have hlast : [i].filter (fun i => decide (RepliedOk (localTrace i c.hist)) &&
            decide (addressed useNl (localTrace i c.hist) = some (sk, dk))) = [] := by
          simp [htarget, Ne.symm hkey]
        rw [hlast, List.append_nil, SetDest.apply, Table.lookup_set_ne _ hkey]
        exact ⟨hsome, hweight⟩
    · have hlast : [i].filter (fun i => decide (RepliedOk (localTrace i c.hist)) &&
          decide (addressed useNl (localTrace i c.hist) = some (sk, dk))) = [] := by
        simp [hno]
      rw [heff, hlast, List.append_nil]
      exact ⟨hsome, hweight⟩

/-! ## Agreement -/

/-- In every schedule the replies agree with the kernel. -/
theorem repliesAgree (useNl : Bool) (jc : Jsoncpp) (libc : Libc) (config : ConfigurationManager)
    (t : Table) (req : ι → Request) (c : Server ι) (h : c.Reached useNl jc libc config t req) :
    RepliesAgree useNl jc libc config t req c where
  exclusive i j hi hj := by
    have hij := (h.owner_of_inside hi).symm.trans (h.owner_of_inside hj)
    exact Option.some.inj hij
  inside i e k hp he := by
    obtain ⟨q, -, htracks, hwp⟩ := h.tracks i
    rw [hp] at hwp
    rw [← htracks.inside]
    cases e with
    | gethostbyname name => exact hwp.1
    | getservbyname name proto => exact hwp.1
    | updateDest svc dest => exact hwp.1.1
    | _ => exact he.elim
  named i before svc dest r after hsplit := by
    have hpermits := wp_permits (reach_steps h i)
      (handlePostRequest_named jc libc config (req i).conn (req i).body)
    rw [hsplit] at hpermits
    have hnamed := Monitor.permits_allows hpermits svc dest rfl
    rwa [Monitor.after_recording, List.nil_append] at hnamed
  once i hp := by
    obtain ⟨q, -, htracks, hwp⟩ := h.tracks i
    rw [hp] at hwp
    rw [← htracks.summary]
    exact hwp.2
  okIff i hne := by
    obtain ⟨q, hq, htracks, -⟩ := h.tracks i
    exact htracks.repliedOk_iff hq hne
  okOrError i hne := by
    obtain ⟨q, hq, htracks, -⟩ := h.tracks i
    rw [htracks.repliedOk_iff hq hne, htracks.repliedError_iff hq hne]
  errorKeeps i herr en hen htid := by
    obtain ⟨q, hq, htracks, -⟩ := h.tracks i
    have hne : (summarize (localTrace i c.hist)).replies ≠ [] := by
      obtain ⟨message, status, -, hmem⟩ := herr
      exact List.ne_nil_of_mem hmem
    exact h.table_of_failed ((htracks.repliedError_iff hq hne).1 herr) hen htid
  free hall := by
    cases howner : c.shared.owner .ipvs with
    | none => rfl
    | some i =>
      obtain ⟨q, -, htracks, hwp⟩ := h.tracks i
      rw [hall i] at hwp
      have hnone : q.holding = none := hwp.1
      rw [h.owner_iff, htracks.held, hnone] at howner
      simp at howner
  final hfree sk dk := by
    rw [h.table_eq]
    exact (weight_serial h hfree sk dk _).2

/-! ## A race -/

/-- The document of a request for the host 10.0.0.2. -/
def raceDocument (key : String) (kernels : Int) : Value :=
  .object [(lit "api_key", .string (lit key)), (lit "host", .string (lit "10.0.0.2")),
    (lit "available_kernels", .int kernels)]

/-- Two clients that know the key, and one that does not. -/
def raceBodies : List (Str × Value) :=
  [(lit "first", raceDocument "secret" 4), (lit "second", raceDocument "secret" 7),
    (lit "third", raceDocument "public" 9)]

/-- A parser that knows these documents. -/
def raceJsoncpp : Jsoncpp := ⟨fun body => raceBodies.lookup body, fun _ => []⟩

/-- A library that knows the two addresses. -/
def raceLibc : Libc where
  inetPton6 _ := none
  inetAton name := [(lit "10.0.0.1", 0x0100000a), (lit "10.0.0.2", 0x0200000a)].lookup name

/-- The configuration of the server. -/
def raceConfig : ConfigurationManager :=
  { ConfigurationManager.new with mApiKey := lit "secret", mVip := lit "10.0.0.1:80" }

/-- The virtual service. -/
def raceService : ServiceKey := .address ipprotoTcp (.v4 0x0100000a) (htons 80)

/-- The destination that the requests are about. -/
def raceDest : DestKey := ⟨.v4 0x0200000a, htons 80⟩

/-- The destination has the weight 1 at first. -/
def raceTable : Table := fun sk =>
  if sk = raceService then
    some fun dk => if dk = raceDest then some ⟨ipVsConnFDroute, 1, 0, 0⟩ else none
  else none

/-- The requests of the three clients, on sound connections. -/
def raceRequest (i : Fin 3) : Request := ⟨.sound, [lit "first", lit "second", lit "third"].getD i []⟩

/-- The first handler is the first one to read the configuration, and the last one to take the other
    mutex. The third one replies while the second one is inside `set_weight`. -/
def raceSchedule : List (Fin 3) :=
  [0, 0, 0, 0, 1, 1, 1, 1, 1, 2, 2, 2, 2, 1, 2, 1, 2, 2, 2, 1, 1, 1, 1, 1, 0, 0, 0, 0, 0, 0, 0, 0]

theorem repliesAgree_sample :
    ∃ c : Server (Fin 3),
      (serverInit raceJsoncpp raceLibc raceConfig raceTable raceRequest).play
          (callAnswer true .empty) raceSchedule = some c ∧
        (RepliedOk (localTrace 0 c.hist) ∧ RepliedOk (localTrace 1 c.hist) ∧
          ¬ RepliedOk (localTrace 2 c.hist) ∧ mutexOps.order .ipvs c.hist = [1, 0] ∧
          lastOk true c raceService raceDest = some 0 ∧
          c.shared.table.lookup raceService raceDest = some ⟨ipVsConnFDroute, 4, 0, 0⟩) ∧
        RepliesAgree true raceJsoncpp raceLibc raceConfig raceTable raceRequest c := by
  have hrun : ((serverInit raceJsoncpp raceLibc raceConfig raceTable raceRequest).play
      (callAnswer true .empty) raceSchedule).any (fun c => decide
        (RepliedOk (localTrace 0 c.hist) ∧ RepliedOk (localTrace 1 c.hist) ∧
          ¬ RepliedOk (localTrace 2 c.hist) ∧ mutexOps.order .ipvs c.hist = [1, 0] ∧
          lastOk true c raceService raceDest = some 0 ∧
          c.shared.table.lookup raceService raceDest = some ⟨ipVsConnFDroute, 4, 0, 0⟩)) = true := by
    decide +kernel
  rw [Option.any_eq_true] at hrun
  obtain ⟨c, hplay, hfacts⟩ := hrun
  have hreach : c.Reached true raceJsoncpp raceLibc raceConfig raceTable raceRequest := by
    refine play_reach (fun i e s r s' h => ?_) hplay
    exact callAnswer_sem h
  exact ⟨c, hplay, of_decide_eq_true hfacts, repliesAgree true _ raceLibc _ _ _ c hreach⟩

end Ipvshttpd
