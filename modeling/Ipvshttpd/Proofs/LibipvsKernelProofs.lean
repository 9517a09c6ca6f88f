import Ipvshttpd.LibipvsKernel
import Ipvshttpd.Proofs.LibipvsClientProofs
import Ipvshttpd.Proofs.LibipvsRoundTripProofs

/-!
# Proofs: a kernel under libipvs

The tables of the kernel after any run are those that the requests it has answered make of the tables
before it, and its answers describe the tables. With what libipvs says about the requests that it has
sent and about the messages that it has read, each of its functions is one step of the tables.
-/

namespace Ipvshttpd.Libipvs

open CLib Netlink Resumption

variable {K S : Type} {nl : Libnl} {kernel : Kernel K} {view : View K}
  {base : Env NlCall NlCall.Answer S}

/-! ## Steps of the machine -/

theorem Kernel.Handles.append {loses : Prop} {handled handled' : List (Request × Bool)} {k k' k'' : K}
    (h : kernel.Handles loses handled k k') (h' : kernel.Handles loses handled' k' k'') :
    kernel.Handles loses (handled ++ handled') k k'' := by
  induction h with
  | nil k => exact h'
  | carried hkernel hlost _ ih => exact .carried hkernel hlost (ih h')
  | refused hkernel _ ih => exact .refused hkernel (ih h')

theorem Kernel.Handles.eq_of_nil {loses : Prop} {k k' : K} (h : kernel.Handles loses [] k k') :
    k' = k := by
  cases h with
  | nil k => rfl

/-- A request that has been confirmed has been carried out. -/
theorem Kernel.Handles.confirmed {loses : Prop} {request : Request} {k k' : K}
    (h : kernel.Handles loses [(request, true)] k k') : kernel request k = some k' := by
  cases h with
  | carried hkernel _ hrest =>
    rw [hrest.eq_of_nil]
    exact hkernel

/-- A request that has not been confirmed has changed nothing, or has been carried out and the answer
    has got lost. -/
theorem Kernel.Handles.unconfirmed {loses : Prop} {request : Request} {k k' : K}
    (h : kernel.Handles loses [(request, false)] k k') :
    k' = k ∨ (loses ∧ kernel request k = some k') := by
  cases h with
  | carried hkernel hlost hrest =>
    rw [hrest.eq_of_nil]
    exact Or.inr ⟨hlost rfl, hkernel⟩
  | refused _ hrest => exact Or.inl hrest.eq_of_nil

/-- What happens between two states of a machine: the heap follows the rules of libnl, the tables
    follow the requests that reach the kernel, and while none does, the answers describe the tables. -/
structure Machine.Follows (nl : Libnl) (kernel : Kernel K) (view : View K) (loses : Prop)
    (m : Machine K S) (q : NlHeap) (m' : Machine K S) : Prop where
  rules : m'.heap = q
  requests : ∃ handled heard, q.handled nl = m.heap.handled nl ++ handled ∧
    q.heard = m.heap.heard ++ heard ∧ kernel.Handles loses handled m.tables m'.tables ∧
    (handled = [] → ∀ h ∈ heard, view.Tells nl m.tables h)

variable {loses : Prop}

theorem Machine.Follows.same {m m' : Machine K S} {q : NlHeap} (hrules : m'.heap = q)
    (htables : m'.tables = m.tables) (h : q.answered = m.heap.answered ∧ q.heard = m.heap.heard) :
    m.Follows nl kernel view loses q m' := by
  refine ⟨hrules, [], [], ?_, ?_, ?_, fun _ _ h => by cases h⟩
  · simp only [NlHeap.handled, h.1, List.append_nil]
  · rw [h.2, List.append_nil]
  · rw [htables]
    exact .nil _

theorem Machine.Follows.trans {m m' m'' : Machine K S} {q' q'' : NlHeap}
    (h : m.Follows nl kernel view loses q' m') (h' : m'.Follows nl kernel view loses q'' m'') :
    m.Follows nl kernel view loses q'' m'' := by
  obtain ⟨hheap, handled, heard, hhandled, hheard, htables, htells⟩ := h
  obtain ⟨hheap', handled', heard', hhandled', hheard', htables', htells'⟩ := h'
  rw [hheap] at hhandled' hheard'
  refine ⟨hheap', handled ++ handled', heard ++ heard', ?_, ?_, htables.append htables', ?_⟩
  · rw [hhandled', hhandled, List.append_assoc]
  · rw [hheard', hheard, List.append_assoc]
  · intro hnil t ht
    obtain ⟨rfl, rfl⟩ := List.append_eq_nil_iff.1 hnil
    rcases List.mem_append.1 ht with ht | ht
    · exact htells rfl t ht
    · rw [← htables.eq_of_nil]
      exact htells' rfl t ht

/-- Only an answer of the kernel and a successful `setsockopt` answer or tell anything. -/
theorem next_answered (q : NlHeap) (e : NlCall) (hrecv : ∀ sock, e ≠ .nlRecvmsgsDefault sock)
    (hset : ∀ fd opt, e ≠ .setsockopt fd opt) (r : e.Answer) :
    ((nlRules nl).next q e r).answered = q.answered ∧
      ((nlRules nl).next q e r).heard = q.heard := by
  cases e with
  | nlRecvmsgsDefault sock => exact absurd rfl (hrecv sock)
  | setsockopt fd opt => exact absurd rfl (hset fd opt)
  | nlmsgAlloc | nlaPut _ _ | nlaNestStart _ _ | nlSocketAlloc | malloc | realloc _ | socket
  | getsockopt _ _ => cases r <;> exact ⟨rfl, rfl⟩
  | nlmsgFree msg => exact ⟨NlHeap.freeMsg_answered q msg, NlHeap.freeMsg_heard q msg⟩
  | nlSendAutoComplete sock msg =>
    simp only [nlRules]
    split_ifs <;> exact ⟨rfl, rfl⟩
  | free block => cases block <;> exact ⟨rfl, rfl⟩
  | close fd => cases fd <;> exact ⟨rfl, rfl⟩
  | genlmsgPut _ _ _ _ | nlaNestEnd _ | genlConnect _ | genlCtrlResolve _ | nlSocketModifyCb _
  | nlSocketFree _ | access _ => exact ⟨rfl, rfl⟩

theorem handled_receive (q : NlHeap) (answer : List Bytes × Int) :
    (q.receive answer).handled nl = q.handled nl ++
      (q.sent.getLast?.bind (Sent.request nl)).toList.map (·, decide (0 ≤ answer.2)) := by
  cases hlast : q.sent.getLast? with
  | none => simp [NlHeap.handled, NlHeap.receive, hlast]
  | some s => cases hs : s.request nl <;> simp [NlHeap.handled, NlHeap.receive, hlast, hs]

theorem refusal_neg (code : Int) : refusal code < 0 := by
  unfold refusal
  split_ifs <;> omega

theorem heard_receive (q : NlHeap) (answer : List Bytes × Int) :
    (q.receive answer).heard =
      q.heard ++ if answer.2 < 0 then [] else [(q.sent.getLast?, answer.1)] := by
  by_cases hneg : answer.2 < 0
  · simp [NlHeap.receive, hneg]
  · simp [NlHeap.receive, hneg]

/-- An answer that is not an error describes the tables. -/
theorem View.answer_tells (k : K) (asked : Option Sent) (answer : List Bytes × Int)
    (hcode : ¬ (view.answer nl k asked answer).2 < 0) :
    view.Tells nl k (asked, (view.answer nl k asked answer).1) := by
  intro query hquery
  have hasked : asked.bind (Sent.query nl) = some query := hquery
  unfold View.answer at hcode ⊢
  rw [hasked] at hcode ⊢
  by_cases hneg : answer.2 < 0
  · simp only [if_pos hneg] at hcode
    exact absurd hneg hcode
  · simp only [if_neg hneg]

theorem machine_step (e : NlCall) (m : Machine K S) :
    m.Follows nl kernel view (Loses base)
      ((nlRules nl).next m.heap e (machine nl kernel view base e m).1)
      (machine nl kernel view base e m).2 := by
  cases e with
  | nlRecvmsgsDefault sock =>
    simp only [machine]
    cases hrequest : m.heap.sent.getLast?.bind (Sent.request nl) with
    | none =>
      refine ⟨rfl, [], _, ?_, heard_receive _ _, .nil _, fun _ h hh => ?_⟩
      · show (m.heap.receive _).handled nl = _
        rw [handled_receive, hrequest]
        rfl
      · split_ifs at hh with hneg
        · cases hh
        · rw [List.mem_singleton.1 hh]
          exact View.answer_tells _ _ _ hneg
    | some request =>
      have hhandled : ∀ answer, (m.heap.receive answer).handled nl =
          m.heap.handled nl ++ [(request, decide (0 ≤ answer.2))] := by
        intro answer
        rw [handled_receive, hrequest]
        rfl
      simp only
      cases hkernel : kernel request m.tables with
      | none =>
        have hneg := refusal_neg (base (.nlRecvmsgsDefault sock) m.rest).1.2
        refine ⟨rfl, [(request, false)], [], ?_, ?_, .refused hkernel (.nil _),
          fun h => by cases h⟩
        · show (m.heap.receive _).handled nl = _
          rw [hhandled, decide_eq_false (not_le.2 hneg)]
        · show (m.heap.receive _).heard = _
          rw [heard_receive, if_pos hneg]
      | some tables =>
        refine ⟨rfl, _, _, hhandled _, heard_receive _ _, .carried hkernel (fun hcode => ?_) (.nil _),
          fun h => by cases h⟩
        exact ⟨sock, m.rest, not_le.1 (of_decide_eq_false hcode)⟩
  | setsockopt fd opt =>
    have hsame : ∀ rest : S, m.Follows nl kernel view (Loses base) m.heap ⟨m.heap, m.tables, rest⟩ :=
      fun _ => .same rfl rfl ⟨rfl, rfl⟩
    simp only [machine]
    cases hresult : (base (.setsockopt fd opt) m.rest).1 with
    | error err => exact hsame _
    | ok _ =>
      cases hrequest : opt.request with
      | none => exact hsame _
      | some request =>
        simp only [Option.bind_some]
        cases hkernel : kernel request m.tables with
        | none => exact hsame _
        | some tables =>
          refine ⟨rfl, [(request, true)], [], ?_, (List.append_nil _).symm,
            .carried hkernel (fun h => by cases h) (.nil _), fun h => by cases h⟩
          show (m.heap.carryOut _).handled nl = _
          simp [NlHeap.handled, NlHeap.carryOut, Sent.request, hrequest]
  | _ => exact .same rfl rfl (next_answered _ _ (by simp) (by simp) _)

/-- In every run on a machine the tables follow the requests that reach the kernel. -/
theorem machine_run {X α : Type} (p : Prog NlCall NlCall.Answer X α) (m : Machine K S) :
    m.Follows nl kernel view (Loses base)
      ((nlRules nl).after m.heap (p.run (machine nl kernel view base) m).trace)
      (p.run (machine nl kernel view base) m).state := by
  induction p generalizing m with
  | ret a => exact .same rfl rfl ⟨rfl, rfl⟩
  | raise x => exact .same rfl rfl ⟨rfl, rfl⟩
  | call e k ih =>
    have hstep := @machine_step K S nl kernel view base e m
    have hrest := ih (machine nl kernel view base e m).1 (machine nl kernel view base e m).2
    rw [hstep.rules] at hrest
    exact hstep.trans hrest

/-! ## Commands on a machine -/

/-- A command is one step of the tables. -/
theorem command_machine (c : Command) (v : Statics) (m : Machine K S) :
    ∃ r v', ((c.prog v).run (machine nl kernel view base) m).outcome = .ok (r, v') ∧
      v'.tryNl = v.tryNl ∧ c.sem kernel (Loses base) v.tryNl m.tables r
        ((c.prog v).run (machine nl kernel view base) m).state.tables := by
  have hwp := @Command.prog_wp nl (fun _ _ => False) m.heap v c
  obtain ⟨-, hend⟩ := Stateful.wp_run hwp (machine nl kernel view base) m
  obtain ⟨-, handled, -, hhandled, -, htables, -⟩ :=
    @machine_run K S nl kernel view base _ _ (c.prog v) m
  rcases hend with ⟨r, v', hout, hpost⟩ | ⟨fault, -, hfault⟩
  case inr => exact hfault.elim
  refine ⟨r, v', hout, hpost.tryNl, ?_⟩
  have hnew : ∀ {new}, _ = m.heap.handled nl ++ new → handled = new := fun h =>
    List.append_cancel_left (hhandled.symm.trans h)
  rcases hpost.handled with
    ⟨hr, request, hmeaning, -, hdone⟩ | ⟨hr, hsame | ⟨hnl, request, hmeaning, hdone⟩⟩
  · rw [hnew hdone] at htables
    exact Or.inl ⟨hr, request, hmeaning, htables.confirmed⟩
  · rw [hnew (hsame.trans (List.append_nil _).symm)] at htables
    exact Or.inr ⟨hr, Or.inl htables.eq_of_nil⟩
  · rw [hnew hdone] at htables
    refine Or.inr ⟨hr, htables.unconfirmed.imp_right fun hlost => ?_⟩
    exact ⟨hnl, hlost.1, request, hmeaning, hlost.2⟩

/-- The function of libipvs does what the threads of the server take `ipvs_update_dest` to do, except
    that the answer of the kernel may get lost over netlink. It edits the table and returns 0, or
    returns -1 and leaves the table alone; or else it edits the table and returns -1, which happens
    only where receiving an answer may fail. -/
theorem updateDest_refines {ι : Type} [DecidableEq ι] (i : ι) (owner : Mutex → Option ι)
    (other : Kernel Table) (nl : Libnl) (view : View Table) (base : Env NlCall NlCall.Answer S)
    (svc : ServiceUser) (dest : Dest) (v : Statics) (m : Machine Table S) :
    let run := (Libipvs.ipvsUpdateDest svc dest v).run (machine nl (tableKernel other) view base) m
    ∃ r v', run.outcome = .ok (r, v') ∧ v'.tryNl = v.tryNl ∧
      (callSem v.tryNl i (.updateDest svc.toService dest) ⟨owner, m.tables⟩ r
          ⟨owner, run.state.tables⟩ ∨
        (r = -1 ∧ v.tryNl = true ∧ Loses base ∧
          ∃ cmd, Ipvshttpd.ipvsUpdateDest v.tryNl svc.toService dest = some cmd ∧
            cmd.Applicable m.tables ∧ run.state.tables = cmd.apply m.tables)) := by
  intro run
  obtain ⟨r, v', hout, htry, hcases⟩ :=
    @command_machine Table S nl (tableKernel other) view base (.updateDest svc dest) v m
  -- a request that has been carried out is an edit of the table
  have hedit : ∀ {request}, (Command.updateDest svc dest).meaning v.tryNl = some request →
      tableKernel other request m.tables = some run.state.tables →
      ∃ cmd, Ipvshttpd.ipvsUpdateDest v.tryNl svc.toService dest = some cmd ∧
        cmd.Applicable m.tables ∧ run.state.tables = cmd.apply m.tables := by
    intro request hmeaning hkernel
    obtain ⟨cmd, hcmd, rfl⟩ := Option.map_eq_some_iff.1 hmeaning
    obtain ⟨happ, htables⟩ := Option.ite_none_right_eq_some.1 hkernel
    exact ⟨cmd, hcmd, happ, (Option.some.inj htables).symm⟩
  refine ⟨r, v', hout, htry, ?_⟩
  rcases hcases with
    ⟨hr, request, hmeaning, hkernel⟩ | ⟨hr, hsame | ⟨hnl, hloses, request, hmeaning, hkernel⟩⟩
  · obtain ⟨cmd, hcmd, happ, htables⟩ := hedit hmeaning hkernel
    refine Or.inl (Or.inl ⟨hr, cmd, hcmd, happ, ?_⟩)
    rw [htables]
  · refine Or.inl (Or.inr ⟨?_, ?_⟩)
    · rw [hr]
      exact (by decide : (-1 : Int) ≠ 0)
    · have htables : run.state.tables = m.tables := hsame
      rw [htables]
  · exact Or.inr ⟨hr, hnl, hloses, hedit hmeaning hkernel⟩

/-! ## Queries on a machine -/

/-- The service in a query is the one that the caller has given. -/
theorem readServiceKey_query (fwmark : BitVec 32) (af protocol : BitVec 16) (addr : NfInetAddr)
    (port : BitVec 16) :
    readServiceKey (attrTable ipvsSvcAttrMax (serviceKeyAttrs fwmark af protocol addr port)) =
      some (Command.serviceKey true (serviceQuery fwmark af protocol addr port)) := by
  have hsame : ∀ type ∈ [ipvsSvcAttrAf, ipvsSvcAttrFwmark, ipvsSvcAttrProtocol, ipvsSvcAttrAddr,
      ipvsSvcAttrPort], attrTable ipvsSvcAttrMax (serviceKeyAttrs fwmark af protocol addr port) type =
        attrTable ipvsSvcAttrMax (serviceAttrs (serviceQuery fwmark af protocol addr port)) type := by
    by_cases hmark : fwmark = 0#32 <;>
      simp [attrTable, serviceAttrs, serviceKeyAttrs, serviceQuery, Service.zero, Attr.ofU16,
        Attr.ofU32, Attr.ofString, hmark]
  have hread := readServiceKey_eq (serviceTable (serviceQuery fwmark af protocol addr port))
  simp only [List.forall_mem_cons] at hsame
  obtain ⟨haf, hfwmark, hprotocol, haddr, hport, -⟩ := hsame
  rw [readServiceKey, haf, hfwmark, hprotocol, haddr, hport]
  exact hread

theorem serviceKeyAttrs_parse (fwmark : BitVec 32) (af protocol : BitVec 16) (addr : NfInetAddr)
    (port : BitVec 16) :
    nl.nlaParse ipvsSvcAttrMax ipvsServicePolicy
        (nl.stream (serviceKeyAttrs fwmark af protocol addr port)) =
      some (attrTable ipvsSvcAttrMax (serviceKeyAttrs fwmark af protocol addr port)) ∧
    (nl.stream (serviceKeyAttrs fwmark af protocol addr port)).length + 4 < 2 ^ 16 := by
  have hsub : ∀ a ∈ serviceKeyAttrs fwmark af protocol addr port,
      a ∈ serviceAttrs (serviceQuery fwmark af protocol addr port) := by
    intro a ha
    simp only [serviceAttrs, List.append_assoc]
    exact List.mem_append_left _ ha
  have hshort := fun a ha => serviceAttrs_short _ a (hsub a ha)
  have hlen : (serviceKeyAttrs fwmark af protocol addr port).length ≤ 4 :=
    Nat.succ_le_succ (length_ite_le (by simp) (Nat.le_refl _))
  have hle := stream_length_le nl hlen fun a ha => (hshort a ha).2
  refine ⟨nl.parse_stream _ _ _ (fits_of_short hshort) fun a ha => ?_, by omega⟩
  exact serviceAttrs_passes _ a (hsub a ha)

/-- A message with a service in it names this service. -/
theorem serviceKey_nested {m : NlMsg} {payload : Bytes} {attrs : Attrs} {key : ServiceKey}
    (hm : m.attrs = [⟨ipvsCmdAttrService, payload⟩]) (hlen : payload.length + 4 < 2 ^ 16)
    (hparse : nl.nlaParse ipvsSvcAttrMax ipvsServicePolicy payload = some attrs)
    (hkey : readServiceKey attrs = some key) : m.serviceKey nl = some key := by
  obtain ⟨outer, houter, hpayload⟩ := @parse_nested nl _ (Or.inl rfl) payload hlen
  simp only [NlMsg.serviceKey, hm, houter, Option.bind_eq_bind, Option.bind_some, hpayload, nested,
    hparse, hkey]

theorem destsMsg_query (v : Statics) (svc : ServiceEntry) :
    (Sent.netlink (destsMsg nl v svc)).query nl = some (.dests (Command.serviceKey true
      (serviceQuery svc.fwmark svc.af svc.protocol svc.addr svc.port))) := by
  obtain ⟨hparse, hlen⟩ :=
    @serviceKeyAttrs_parse nl svc.fwmark svc.af svc.protocol svc.addr svc.port
  have hkey := @serviceKey_nested nl (destsMsg nl v svc) _ _ _ rfl hlen hparse
    (readServiceKey_query _ _ _ _ _)
  show Option.map Query.dests ((destsMsg nl v svc).serviceKey nl) = _
  rw [hkey]
  rfl

theorem serviceMsg_query (v : Statics) (fwmark : BitVec 32) (af protocol : BitVec 16)
    (addr : NfInetAddr) (port : BitVec 16) :
    (Sent.netlink (serviceMsg nl v fwmark af protocol addr port)).query nl =
      some (.service (Command.serviceKey true (serviceQuery fwmark af protocol addr port))) := by
  have hkey := @serviceKey_nested nl (serviceMsg nl v fwmark af protocol addr port) _ _ _ rfl
    (serviceAttrs_length _) (parse_serviceAttrs _) (readServiceKey_eq (serviceTable _))
  show Option.map Query.service ((serviceMsg nl v fwmark af protocol addr port).serviceKey nl) = _
  rw [hkey]
  rfl

theorem mapM_map {α β γ : Type} {f : β → Option γ} {g : α → β} {h : α → γ}
    (hfg : ∀ a, f (g a) = some (h a)) (xs : List α) : (xs.map g).mapM f = some (xs.map h) := by
  induction xs with
  | nil => rfl
  | cons x xs ih => simp [List.mapM_cons, hfg, ih]

/-- The daemons that run are read to the two records. -/
theorem updates_daemons {dms : List DaemonArg} (hfew : dms.length ≤ 2)
    (hrunning : ∀ dm ∈ dms, dm.state ≠ 0) {u : DaemonUser × DaemonUser}
    (h : Updates (daemonsAfter nl) (.zero, .zero) (dms.map (daemonMessage nl)) u) :
    u = daemonPair dms := by
  have hfirst : ∀ dm : DaemonArg, daemonsAfter nl (.zero, .zero) (daemonMessage nl dm) =
      some (dm.back, .zero) := fun dm => daemonsAfter_daemonMessage _ dm rfl
  match dms, hfew with
  | [], _ => exact (Option.some.inj h).symm
  | [dm], _ =>
    simp only [Updates, List.map_cons, List.map_nil, List.foldlM_cons, List.foldlM_nil, hfirst] at h
    exact (Option.some.inj h).symm
  | [dm, dm'], _ =>
    have hstate : dm.back.state ≠ 0 := hrunning dm List.mem_cons_self
    have hsecond := @daemonsAfter_daemonMessage nl (dm.back, .zero) dm' (if_pos hstate)
    rw [if_pos hstate] at hsecond
    simp only [Updates, List.map_cons, List.map_nil, List.foldlM_cons, List.foldlM_nil, hfirst,
      Option.bind_eq_bind, Option.bind_some, hsecond] at h
    exact (Option.some.inj h).symm

theorem mapM_serviceOf (svcs : List (ServiceUser × Stats64)) :
    (svcs.map fun s => serviceMessage nl s.1 s.2).mapM (serviceOf nl) =
      some (svcs.map fun s => s.1.entry s.2) := by
  have hread : ∀ s : ServiceUser × Stats64,
      serviceOf nl (serviceMessage nl s.1 s.2) = some (s.1.entry s.2) :=
    fun s => serviceOf_serviceMessage s.1 s.2
  exact mapM_map hread svcs

theorem mapM_destOf (af : BitVec 16) (dests : List (Dest × Connections × Stats64)) :
    (dests.map fun d => destMessage nl d.1 d.2.1 d.2.2).mapM (destOf nl af) =
      some (dests.map fun d => destEntryOf d.1 d.2.1 d.2.2.low) :=
  mapM_map (fun d => destOf_destMessage af d.1 d.2.1 d.2.2) dests

theorem services_shown {k : K} {get : GetServices}
    (h : ServicesContent nl (view.messages nl k .services) get) :
    get.entrytable = (view.services k).map fun s => s.1.entry s.2 :=
  Option.some.inj (h.entries.symm.trans (mapM_serviceOf (view.services k)))

theorem service_shown {k : K} {key : ServiceKey} {one : OneService}
    (h : OneServiceContent nl (view.messages nl k (.service key)) one) :
    one.entry = (view.service k key).map fun s => s.1.entry s.2 := by
  obtain ⟨entries, hentries, hhead⟩ := h
  have hread := Option.some.inj (hentries.symm.trans (mapM_serviceOf (view.service k key).toList))
  rw [hhead, hread, List.head?_map, Option.head?_toList]

theorem dests_shown {k : K} {key : ServiceKey} {svc : ServiceEntry} (hzero : svc.numDests = 0)
    {d : GetDests} (h : DestsContent nl svc (view.messages nl k (.dests key)) d) :
    d.entrytable = (view.dests k key).map fun d => some (destEntryOf d.1 d.2.1 d.2.2.low) := by
  obtain ⟨entries, hentries, htable⟩ := h.entries
  have hread := Option.some.inj (hentries.symm.trans (mapM_destOf svc.af (view.dests k key)))
  rw [htable, hread, hzero, List.map_map]
  rfl

theorem timeouts_shown {k : K} {init t : Timeouts}
    (h : Updates (timeoutsAfter nl) init (view.messages nl k .timeouts) t) :
    t = view.timeouts k := by
  simp only [Updates, View.messages, List.foldlM_cons, List.foldlM_nil,
    timeoutsAfter_timeoutMessage, Option.bind_eq_bind, Option.bind_some] at h
  exact (Option.some.inj h).symm

/-- While no request reaches the kernel the tables stay as they are. -/
theorem Machine.Follows.tables_eq {m m' : Machine K S} {q' : NlHeap}
    (h : m.Follows nl kernel view loses q' m') (hsame : m.heap.SameRequests nl q') :
    m'.tables = m.tables := by
  obtain ⟨-, handled, heard, hhandled, -, htables, -⟩ := h
  have hnone : handled = [] := List.self_eq_append_right.1 (hsame.handled.symm.trans hhandled)
  rw [hnone] at htables
  exact htables.eq_of_nil

/-- What a query has been told is what the tables are. -/
theorem getPost_told {τ : Type} {asked : NlMsg} {blockOf : τ → Nat}
    {content : List Bytes → τ → Prop} {v v' : Statics} {m m' : Machine K S} {q' : NlHeap}
    {r : Option τ} (hpost : GetPost nl m.heap v asked blockOf content q' v' r)
    (hfollows : m.Follows nl kernel view loses q' m') {query : Query}
    (hquery : (Sent.netlink asked).query nl = some query) :
    m'.tables = m.tables ∧
      (v.tryNl = true → ∀ t ∈ r, content (view.messages nl m.tables query) t) := by
  obtain ⟨-, handled, heard, hhandled, hheard, htables, htells⟩ := hfollows
  have hnone : handled = [] :=
    List.self_eq_append_right.1 (hpost.requests.handled.symm.trans hhandled)
  subst hnone
  refine ⟨htables.eq_of_nil, fun hnl t ht => ?_⟩
  obtain ⟨ms, hhears, hcontent⟩ := hpost.content hnl t ht
  have hnew : heard = [(some (Sent.netlink asked), ms)] :=
    List.append_cancel_left (hheard.symm.trans hhears.heard)
  have htold := htells rfl (some (Sent.netlink asked), ms) (by rw [hnew]; exact List.mem_cons_self)
  have hms : ms = view.messages nl m.tables query := htold query hquery
  rw [← hms]
  exact hcontent

/-! ## Sessions on a machine -/

variable {useNl : Bool} {fd : Option Nat} {q₀ : NlHeap} {p : Ledger}

/-- Every function of libipvs is one step of the tables. -/
theorem api_machine (fresh : Fresh) (a : Api) {m : Machine K S} {v v' : Statics} {r : a.Answer}
    (h : Sim nl q₀ useNl fd p m.heap v) (hallow : apiRules.allows p a)
    (hrun : ((a.prog nl fresh v).run (machine nl kernel view base) m).outcome = .ok (r, v')) :
    Sim nl q₀ useNl fd (apiRules.next p a r)
        ((a.prog nl fresh v).run (machine nl kernel view base) m).state.heap v' ∧
      a.sem kernel view (Loses base) useNl m.tables r
        ((a.prog nl fresh v).run (machine nl kernel view base) m).state.tables := by
  generalize hstate : ((a.prog nl fresh v).run (machine nl kernel view base) m).state = m'
  have hfollows := @machine_run K S nl kernel view base _ _ (a.prog nl fresh v) m
  rw [hstate] at hfollows
  -- what a specification says about this run
  have hpost : ∀ {post : NlHeap → Statics → a.Answer → Prop} {exn : NlHeap → Fault → Prop},
      Stateful.wp (nlRules nl) (a.prog nl fresh) post exn m.heap v → post m'.heap v' r := by
    intro post exn hwp
    rcases (Stateful.wp_run hwp (machine nl kernel view base) m).2 with
      ⟨r', w, hout, hpost⟩ | ⟨x, hout, -⟩
    · rw [hrun] at hout
      cases hout
      rw [hfollows.rules]
      exact hpost
    · rw [hrun] at hout
      cases hout
  refine ⟨hpost (api_wp fresh a h hallow), ?_⟩
  rw [← hfollows.rules] at hfollows
  cases a with
  | getinfo =>
    have hinfo := hpost (@ipvsGetinfo_wp nl (fun _ _ => True) m.heap v)
    exact ⟨hfollows.tables_eq hinfo.requests, fun _ => trivial⟩
  | version =>
    rw [← hstate]
    exact ⟨rfl, fun _ => trivial⟩
  | command c =>
    obtain ⟨r', w, hout, -, hcases⟩ := @command_machine K S nl kernel view base c v m
    cases hrun.symm.trans hout
    rw [h.tryNl] at hcases
    rw [← hstate]
    exact hcases
  | getServices =>
    obtain ⟨htables, hcontent⟩ := getPost_told (hpost (ipvsGetServices_wp fresh.service)) hfollows
      (show _ = some Query.services from rfl)
    exact ⟨htables, fun hnl get hget => services_shown (hcontent (h.tryNl.trans hnl) get hget)⟩
  | getDests svc =>
    obtain ⟨htables, hcontent⟩ := getPost_told (hpost (ipvsGetDests_wp fresh.dest svc)) hfollows
      (destsMsg_query v svc)
    exact ⟨htables, fun hnl d hd =>
      dests_shown (h.known hnl svc hallow) (hcontent (h.tryNl.trans hnl) d hd)⟩
  | getService fwmark af protocol addr port =>
    obtain ⟨htables, hcontent⟩ :=
      getPost_told (hpost (ipvsGetService_wp fwmark af protocol addr port)) hfollows
        (serviceMsg_query v fwmark af protocol addr port)
    exact ⟨htables, fun hnl one hone => service_shown (hcontent (h.tryNl.trans hnl) one hone)⟩
  | getTimeout =>
    obtain ⟨htables, hcontent⟩ := getPost_told (hpost ipvsGetTimeout_wp) hfollows
      (show _ = some Query.timeouts from rfl)
    exact ⟨htables, fun hnl t ht => timeouts_shown (hcontent (h.tryNl.trans hnl) t ht)⟩
  | getDaemon =>
    obtain ⟨htables, hcontent⟩ := getPost_told (hpost ipvsGetDaemon_wp) hfollows
      (show _ = some Query.daemons from rfl)
    exact ⟨htables, fun hnl u hu =>
      updates_daemons (view.few _) (view.running _) (hcontent (h.tryNl.trans hnl) u hu)⟩
  | access block =>
    rw [← hstate]
    exact ⟨rfl, fun _ => trivial⟩
  | free block =>
    rw [← hstate]
    exact ⟨rfl, fun _ => trivial⟩

theorem close_machine {α : Type} (a : α) (v : Statics) (m : Machine K S) :
    let run := ((do
      ipvsClose
      pure (some a) : Lib (Option α)) v).run (machine nl kernel view base) m
    run.outcome = .ok (some a, v) ∧ run.state.tables = m.tables := by
  obtain ⟨sockfd, func, info, family, tryNl, errno⟩ := v
  cases tryNl <;> exact ⟨rfl, rfl⟩

theorem init_machine (v : Statics) (m : Machine K S) :
    ∃ r v', ((ipvsInit nl v).run (machine nl kernel view base) m).outcome = .ok (r, v') ∧
      ((ipvsInit nl v).run (machine nl kernel view base) m).state.tables = m.tables := by
  have hfollows := @machine_run K S nl kernel view base _ _ (ipvsInit nl v) m
  have hwp := @ipvsInit_wp nl (fun _ _ => False) m.heap v
  rcases (Stateful.wp_run hwp (machine nl kernel view base) m).2 with
    ⟨r, v', hout, hpost⟩ | ⟨fault, -, hfault⟩
  · exact ⟨r, v', hout, hfollows.tables_eq hpost.requests⟩
  · exact hfault.elim

/-- A client that keeps its rules sees an atomic history of the tables. -/
theorem client_machine {α : Type} {client : Prog Api Api.Answer Fault α} {post : Ledger → α → Prop}
    (fresh : Fresh) (hclient : client.wp apiRules post (fun _ _ => False) p) {m : Machine K S}
    {v v' : Statics} {a : α} (h : Sim nl q₀ useNl fd p m.heap v)
    (hrun : ((client.handle id (Api.prog nl fresh) v).run (machine nl kernel view base) m).outcome =
      .ok (a, v')) :
    ∃ history, client.Steps history (.ret a) ∧
      Atomic (Api.sem kernel view (Loses base) useNl) m.tables history
        ((client.handle id (Api.prog nl fresh) v).run (machine nl kernel view base) m).state.tables ∧
      v'.tryNl = useNl := by
  have hcall : ∀ p (m : Machine K S) v (e : Api) (r : e.Answer) v',
      Sim nl q₀ useNl fd p m.heap v → apiRules.allows p e →
      ((e.prog nl fresh v).run (machine nl kernel view base) m).outcome = .ok (r, v') →
      Sim nl q₀ useNl fd (apiRules.next p e r)
          ((e.prog nl fresh v).run (machine nl kernel view base) m).state.heap v' ∧
        e.sem kernel view (Loses base) useNl m.tables r
          ((e.prog nl fresh v).run (machine nl kernel view base) m).state.tables :=
    fun p m v e r v' hsim hallow hout => api_machine fresh e hsim hallow hout
  obtain ⟨history, hsteps, hatomic, hsim⟩ := Prog.handle_atomic hcall hclient h hrun
  exact ⟨history, hsteps, hatomic, hsim.tryNl⟩

/-- The client between `ipvs_init` and `ipvs_close`. -/
theorem begun_machine {α : Type} {client : Prog Api Api.Answer Fault α} {post : Ledger → α → Prop}
    (fresh : Fresh) (hclient : client.wp apiRules post (fun _ _ => False) .empty) (v : Statics)
    (m : Machine K S) :
    let run := ((do
      let a ← client.handle id (Api.prog nl fresh)
      ipvsClose
      pure (some a) : Lib (Option α)) v).run (machine nl kernel view base) m
    ∀ result v', run.outcome = .ok (result, v') → ∃ a, result = some a ∧ ∃ history,
      client.Steps history (.ret a) ∧
        Atomic (Api.sem kernel view (Loses base) v'.tryNl) m.tables history run.state.tables := by
  intro run result v' hout
  have hsim : Sim nl m.heap v.tryNl v.sockfd .empty m.heap v := .begin m.heap v
  have hbind : run = ((client.handle id (Api.prog nl fresh) v).bind fun av => (do
      ipvsClose
      pure (some av.1) : Lib (Option α)) av.2).run (machine nl kernel view base) m := rfl
  cases hclientOut :
      ((client.handle id (Api.prog nl fresh) v).run (machine nl kernel view base) m).outcome with
  | error fault =>
    rw [hbind, Prog.run_bind_error hclientOut] at hout
    cases hout
  | ok av =>
    obtain ⟨a, v₂⟩ := av
    obtain ⟨history, hsteps, hatomic, htry⟩ := client_machine fresh hclient hsim hclientOut
    obtain ⟨hclose, htables⟩ := @close_machine K S nl kernel view base α a v₂
      ((client.handle id (Api.prog nl fresh) v).run (machine nl kernel view base) m).state
    rw [hbind, Prog.run_bind_ok hclientOut] at hout
    cases hclose.symm.trans hout
    refine ⟨a, rfl, history, hsteps, ?_⟩
    rw [hbind, Prog.run_bind_ok hclientOut, htry]
    rw [← htables] at hatomic
    exact hatomic

/-- A session is an atomic history of its client on the tables of the kernel: the commands that return
    0 are carried out at once and in their order; one that returns -1 has been refused, or has been
    carried out without its answer coming back; and what the client is shown over netlink are the tables
    at that moment. A session that does not begin leaves them alone. -/
theorem session_atomic {α : Type} {client : Prog Api Api.Answer Fault α} {post : Ledger → α → Prop}
    (fresh : Fresh) (hclient : client.wp apiRules post (fun _ _ => False) .empty) (nl : Libnl)
    (kernel : Kernel K) (view : View K) (base : Env NlCall NlCall.Answer S) (k : K) (s : S)
    (v : Statics) :
    let run := (session nl fresh client v).run (machine nl kernel view base) ⟨.empty, k, s⟩
    (∀ a v', run.outcome = .ok (some a, v') → ∃ history, client.Steps history (.ret a) ∧
      Atomic (Api.sem kernel view (Loses base) v'.tryNl) k history run.state.tables) ∧
    ∀ v', run.outcome = .ok (none, v') → run.state.tables = k := by
  intro run
  obtain ⟨r, v₁, hinit, htables⟩ := @init_machine K S nl kernel view base v ⟨.empty, k, s⟩
  have hbind : run = ((ipvsInit nl v).bind fun rv => (if rv.1 = 0 then do
      let a ← client.handle id (Api.prog nl fresh)
      ipvsClose
      pure (some a)
    else pure none : Lib (Option α)) rv.2).run (machine nl kernel view base) ⟨.empty, k, s⟩ := rfl
  rw [Prog.run_bind_ok hinit] at hbind
  generalize ((ipvsInit nl v).run (machine nl kernel view base) ⟨.empty, k, s⟩).state = m
    at hbind htables
  have hk : m.tables = k := htables
  subst hk
  by_cases hr : r = 0
  · simp only [if_pos hr] at hbind
    have hbegun := @begun_machine K S nl kernel view base α client post fresh hclient v₁ m
    rw [hbind]
    refine ⟨fun a v' hout => ?_, fun v' hout => ?_⟩
    · obtain ⟨a', ha', history, hsteps, hatomic⟩ := hbegun _ _ hout
      cases ha'
      exact ⟨history, hsteps, hatomic⟩
    · obtain ⟨a', ha', -⟩ := hbegun _ _ hout
      cases ha'
  · simp only [if_neg hr] at hbind
    rw [hbind]
    exact ⟨fun a v' hout => (by cases hout), fun v' _ => rfl⟩

theorem session_atomic_tuneTimeouts :
    let run := (session Netlink.Tlv.libnl ⟨fun _ => .zero, fun _ => .zero⟩
      (tuneTimeouts ⟨900, 120, 300⟩) .init).run
        (machine Netlink.Tlv.libnl timeoutKernel timeoutView calm) ⟨.empty, ⟨1, 2, 3⟩, 0⟩
    (∀ a v', run.outcome = .ok (some a, v') → ∃ history,
      (tuneTimeouts ⟨900, 120, 300⟩).Steps history (.ret a) ∧
        Atomic (Api.sem timeoutKernel timeoutView (Loses calm) v'.tryNl) ⟨1, 2, 3⟩ history
          run.state.tables) ∧
    ∀ v', run.outcome = .ok (none, v') → run.state.tables = ⟨1, 2, 3⟩ :=
  session_atomic _ (tuneTimeouts_wp _) Netlink.Tlv.libnl timeoutKernel timeoutView calm ⟨1, 2, 3⟩ 0
    .init

end Ipvshttpd.Libipvs
