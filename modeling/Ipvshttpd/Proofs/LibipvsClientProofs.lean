import Ipvshttpd.LibipvsClient
import Ipvshttpd.Netlink.Proofs.TlvProofs
import Ipvshttpd.Proofs.LibipvsRunProofs
import Ipvshttpd.Proofs.LibipvsTablesProofs
import Ipvshttpd.Resumption.Proofs.HandlerProofs

/-!
# Proofs: clients of libipvs

Every function of libipvs keeps a relation between what a client knows and what is allocated and sent.
A client that keeps its rules is therefore carried out without breaking the rules of libnl and of the
heap.
-/

namespace Ipvshttpd.Libipvs

open CLib Netlink Resumption Lib

variable {α : Type} {nl : Libnl} {exn : NlHeap → Fault → Prop} {q q₀ : NlHeap} {v : Statics}

/-! ## Begin and end -/

/-- What `ipvs_getinfo` leaves: over netlink, nothing but the variable `ipvs_info` has changed. -/
structure InfoPost (nl : Libnl) (q : NlHeap) (v : Statics) (q' : NlHeap) (v' : Statics) : Prop where
  msgs : q'.msgs = q.msgs
  socks : q'.socks = q.socks
  fds : q'.fds = q.fds
  blocks : q.SameBlocks q'
  requests : q.SameRequests nl q'
  tryNl : v'.tryNl = v.tryNl
  sockfd : v'.sockfd = v.sockfd
  func : v.tryNl = true → v'.ipvsFunc = v.ipvsFunc

theorem getinfo_keeps :
    (ipvsGetinfoParseCb nl).Keeps nl exn (RecordInv q fun _ (_ : Unit) => True) := by
  intro ms m arg q' v _ hinv
  have hfail : q'.SameNet q' ∧ v.SameWay v ∧ RecordInv q (fun _ (_ : Unit) => True)
      (if (-1 : Int) < 0 then none else some (ms ++ [m])) q'.blocks q'.orphans arg :=
    ⟨.refl q', .refl v, RecordInv.weak ms _ _ _ hinv⟩
  simp only [ipvsGetinfoParseCb]
  split
  case h_1 => exact hfail
  case h_2 attrs hattrs =>
  refine Stateful.wp_ite _ _ _ _ (fun hhas => ?_) fun _ => hfail
  have hnever : ∀ {type : Nat}, (attrs type).isSome → ∀ fault,
      nlaGetU32 nl (attrs type) ≠ .error fault := fun h fault heq => ((PastIff.u32 h fault).1 heq).2
  simp only [Stateful.wp_bind]
  refine wp_ofRead (fun version _ => ?_) fun fault h => (hnever hhas.1 fault h).elim
  refine wp_ofRead (fun size _ => ?_) fun fault h => (hnever hhas.2 fault h).elim
  exact ⟨.refl q', ⟨rfl, rfl, rfl⟩, hinv.1, fun _ _ => trivial⟩

theorem ipvsGetinfo_wp :
    Stateful.wp (nlRules nl) (ipvsGetinfo nl) (fun q' v' _ => InfoPost nl q v q' v') exn q v := by
  simp only [ipvsGetinfo, Stateful.wp_bind, Stateful.wp_get]
  refine Stateful.wp_ite _ _ _ _ (fun _ => ?_) fun hnl => ?_
  · rw [Stateful.wp_bind]
    refine Stateful.wp_mono ?_ (fun _ _ h => h) (nlRequest_wp getinfo_keeps RecordInv.weak
      noFill_fills _ _ () ⟨⟨rfl, rfl⟩, fun _ _ => trivial⟩)
    rintro q' v' r ⟨hdone, hway, hobject, -⟩
    exact ⟨hdone.msgs, hdone.socks, hdone.fds, ⟨hobject.1.1, hobject.1.2⟩,
      hdone.sameRequests (Or.inl rfl), hway.tryNl, hway.sockfd, fun _ => hway.ipvsFunc⟩
  · simp only [Stateful.wp_bind, wp_setFunc, getsockoptInfo, Stateful.wp_get]
    refine (wp_getsockopt _ _ _).2 ⟨fun info => ?_, fun err => ?_⟩
    · exact ⟨rfl, rfl, rfl, ⟨rfl, rfl⟩, ⟨rfl, rfl⟩, rfl, rfl, fun h => absurd h hnl⟩
    · exact ⟨rfl, rfl, rfl, ⟨rfl, rfl⟩, ⟨rfl, rfl⟩, rfl, rfl, fun h => absurd h hnl⟩

/-- What `ipvs_init` leaves. Over netlink nothing stays open; without it, the raw socket does, also if
    `ipvs_init` fails after it has been opened. -/
structure InitPost (nl : Libnl) (q q' : NlHeap) (v' : Statics) (r : Int) : Prop where
  msgs : q'.msgs = q.msgs
  socks : q'.socks = q.socks
  blocks : q.SameBlocks q'
  requests : q.SameRequests nl q'
  fds : q'.fds = if v'.tryNl then q.fds else v'.sockfd.toList ++ q.fds
  opened : v'.tryNl = false → r = 0 → v'.sockfd ≠ none
  func : v'.ipvsFunc = some .init

theorem ipvsInit_wp :
    Stateful.wp (nlRules nl) (ipvsInit nl) (InitPost nl q) exn q v := by
  simp only [ipvsInit, Stateful.wp_bind, wp_setFunc, Stateful.wp_modify]
  refine Stateful.wp_mono ?_ (fun _ _ h => h) (ipvsNlSendMessage_wp (noop_keeps q)
    (untouched_weak q) (fun _ h => by cases h) ⟨rfl, rfl⟩)
  rintro q₁ v₁ r ⟨hdone, hway, hobject, -⟩
  have hnil : q.cmdOf none = [] := rfl
  have hsent : q₁.sent = q.sent := by
    by_cases hr : r.1 = 0
    · simpa [hnil] using (hdone.success hr).1
    · simpa [hnil] using (hdone.failure hr).1
  have hanswered : q₁.answered = q.answered := by
    by_cases hr : r.1 = 0
    · simpa [hnil] using (hdone.success hr).2
    · rcases (hdone.failure hr).2 with hsame | ⟨confirmed, -, hnew⟩
      · exact hsame
      · simpa [hnil] using hnew
  have hrequests : q.SameRequests nl q₁ :=
    ⟨by simp only [NlHeap.requests, hsent], by simp only [NlHeap.handled, hanswered]⟩
  have hblocks : q.SameBlocks q₁ := ⟨hobject.1, hobject.2⟩
  refine Stateful.wp_ite _ _ _ _ (fun _ => ?_) fun _ => ?_
  · refine Stateful.wp_mono ?_ (fun _ _ h => h) ipvsGetinfo_wp
    rintro q' v' r ⟨hmsgs, hsocks, hfds, hsame, hrequests', htry, hsockfd, hfunc⟩
    have htrue : v'.tryNl = true := htry.trans hway.tryNl
    refine ⟨hmsgs.trans hdone.msgs, hsocks.trans hdone.socks,
      ⟨hsame.blocks.trans hblocks.blocks, hsame.orphans.trans hblocks.orphans⟩,
      hrequests.trans hrequests', ?_, fun h => ?_, (hfunc hway.tryNl).trans hway.ipvsFunc⟩
    · rw [if_pos htrue]
      exact hfds.trans hdone.fds
    · rw [htrue] at h
      cases h
  · simp only [Stateful.wp_bind, Stateful.wp_modify, wp_socket, getsockoptInfo, Stateful.wp_pure,
      Stateful.wp_get]
    refine ⟨fun fd => ?_, fun err => ?_⟩
    · have hfds : (q₁.openFd fd).fds = fd :: q.fds := congrArg (List.cons fd) hdone.fds
      refine (wp_getsockopt _ _ _).2 ⟨fun info => ?_, fun err => ?_⟩
      · exact ⟨hdone.msgs, hdone.socks, ⟨hblocks.blocks, hblocks.orphans⟩,
          ⟨hrequests.requests, hrequests.handled⟩, hfds, fun _ _ h => (by cases h), hway.ipvsFunc⟩
      · exact ⟨hdone.msgs, hdone.socks, ⟨hblocks.blocks, hblocks.orphans⟩,
          ⟨hrequests.requests, hrequests.handled⟩, hfds, fun _ h => (by cases h), hway.ipvsFunc⟩
    · exact ⟨hdone.msgs, hdone.socks, hblocks, hrequests, hdone.fds, fun _ h => (by cases h),
        hway.ipvsFunc⟩

/-- The descriptor that libipvs has opened and closes again. -/
def Statics.openFd (v : Statics) : List Nat := if v.tryNl then [] else v.sockfd.toList

theorem InitPost.openFd {q' : NlHeap} {v' : Statics} {r : Int} (h : InitPost nl q q' v' r) :
    q'.fds = v'.openFd ++ q.fds := by
  rw [h.fds, Statics.openFd]
  split_ifs <;> rfl

/-- What the client knows and what is allocated and sent, since the heap was `q₀`. -/
structure Sim (nl : Libnl) (q₀ : NlHeap) (useNl : Bool) (fd : Option Nat) (p : Ledger) (q : NlHeap)
    (v : Statics) : Prop where
  msgs : q.msgs = q₀.msgs
  socks : q.socks = q₀.socks
  fds : q.fds = q₀.fds
  blocks : q.blocks = p.owned ++ q₀.blocks
  orphans : q.orphans.length ≤ q₀.orphans.length + p.nulls
  tryNl : v.tryNl = useNl
  sockfd : v.sockfd = fd
  known : useNl = true → ∀ e ∈ p.known, e.numDests = 0
  delivered : ∃ requests, q.requests nl = q₀.requests nl ++ requests ∧
    Delivered useNl p.log requests
  carriedOut : q.carriedOut nl = q₀.carriedOut nl ++ succeeded useNl p.log

variable {useNl : Bool} {fd : Option Nat} {p : Ledger}

theorem Sim.begin (q : NlHeap) (v : Statics) : Sim nl q v.tryNl v.sockfd .empty q v :=
  ⟨rfl, rfl, rfl, rfl, Nat.le_refl _, rfl, rfl, fun _ e he => (by cases he),
    ⟨[], (List.append_nil _).symm, .nil⟩, (List.append_nil _).symm⟩

/-- What has been sent since the beginning, if nothing had been sent before. -/
theorem Sim.told (h : Sim nl q₀ useNl fd p q v) (htold : q₀.told nl = ([], [])) :
    Delivered useNl p.log (q.requests nl) ∧ q.carriedOut nl = succeeded useNl p.log := by
  obtain ⟨requests, hreqs, hdelivered⟩ := h.delivered
  have hreqs₀ : q₀.requests nl = [] := congrArg Prod.fst htold
  have hcarried₀ : q₀.carriedOut nl = [] := congrArg Prod.snd htold
  rw [hreqs₀, List.nil_append] at hreqs
  refine ⟨hreqs ▸ hdelivered, ?_⟩
  rw [h.carriedOut, hcarried₀, List.nil_append]

/-- What is left of the blocks, if none had been allocated or lost before. -/
theorem Sim.left (h : Sim nl q₀ useNl fd p q v) (hblocks : q₀.blocks = [])
    (horphans : q₀.orphans = []) : q.blocks = p.owned ∧ q.orphans.length ≤ p.nulls := by
  constructor
  · rw [h.blocks, hblocks, List.append_nil]
  · have hlost := h.orphans
    rw [horphans, List.length_nil] at hlost
    omega

theorem Sim.openFd {v₀ : Statics} (h : Sim nl q₀ v₀.tryNl v₀.sockfd p q v) :
    v.openFd = v₀.openFd := by
  rw [Statics.openFd, h.tryNl, h.sockfd, Statics.openFd]

/-- What a client owns after a function has returned, and what it has learned and done before. -/
structure Ledger.Owns (p : Ledger) (block : Option Nat) (p' : Ledger) : Prop where
  owned : p'.owned = block.toList ++ p.owned
  known : p'.known = p.known
  log : p'.log = p.log

theorem Ledger.owns_own (p : Ledger) (block : Option Nat) : p.Owns block (p.own block) := by
  cases block <;> exact ⟨rfl, rfl, rfl⟩

theorem Sim.getPost {τ : Type} {asked : NlMsg} {blockOf : τ → Nat}
    {content : List Bytes → τ → Prop} {q' : NlHeap} {v' : Statics} {r : Option τ}
    {entries : List ServiceEntry} (h : Sim nl q₀ useNl fd p q v)
    (hpost : GetPost nl q v asked blockOf content q' v' r)
    (hentries : useNl = true → ∀ e ∈ entries, e.numDests = 0) :
    Sim nl q₀ useNl fd ((p.own (r.map blockOf)).learn entries) q' v' := by
  have howned := p.owns_own (r.map blockOf)
  refine ⟨hpost.returned.msgs.trans h.msgs, hpost.returned.socks.trans h.socks,
    hpost.returned.fds.trans h.fds, ?_, ?_, hpost.tryNl.trans h.tryNl,
    hpost.sockfd.trans h.sockfd, fun hnl => ?_, ?_, (congrArg Prod.snd hpost.requests.told).trans ?_⟩
  · show q'.blocks = (p.own (r.map blockOf)).owned ++ q₀.blocks
    rw [hpost.returned.blocks, h.blocks, howned.owned, List.append_assoc]
  · have hbefore := h.orphans
    show q'.orphans.length ≤ q₀.orphans.length + (p.own (r.map blockOf)).nulls
    cases r with
    | none =>
      have hlost := hpost.returned.lost.length_le
      show q'.orphans.length ≤ q₀.orphans.length + (p.nulls + 1)
      omega
    | some t =>
      rw [hpost.returned.kept (Option.some_ne_none _)]
      exact hbefore
  · intro e he
    rcases List.mem_append.1 he with he | he
    · rw [howned.known] at he
      exact h.known hnl e he
    · exact hentries hnl e he
  · obtain ⟨requests, hreqs, hdelivered⟩ := h.delivered
    refine ⟨requests, (congrArg Prod.fst hpost.requests.told).trans hreqs, ?_⟩
    show Delivered useNl (p.own (r.map blockOf)).log requests
    rw [howned.log]
    exact hdelivered
  · show q.carriedOut nl = q₀.carriedOut nl ++ succeeded useNl (p.own (r.map blockOf)).log
    rw [howned.log]
    exact h.carriedOut

theorem Ledger.learn_nil (p : Ledger) : p.learn [] = p := by
  rw [Ledger.learn, List.append_nil]

/-- A function that returns a block and tells of no services. -/
theorem Sim.ownPost {τ : Type} {asked : NlMsg} {blockOf : τ → Nat}
    {content : List Bytes → τ → Prop} {q' : NlHeap} {v' : Statics} {r : Option τ}
    (h : Sim nl q₀ useNl fd p q v) (hpost : GetPost nl q v asked blockOf content q' v' r) :
    Sim nl q₀ useNl fd (p.own (r.map blockOf)) q' v' := by
  have hsim := h.getPost hpost fun _ e (he : e ∈ []) => by cases he
  rw [Ledger.learn_nil] at hsim
  exact hsim

theorem Sim.infoPost {q' : NlHeap} {v' : Statics} (h : Sim nl q₀ useNl fd p q v)
    (hpost : InfoPost nl q v q' v') : Sim nl q₀ useNl fd p q' v' := by
  obtain ⟨requests, hreqs, hdelivered⟩ := h.delivered
  exact ⟨hpost.msgs.trans h.msgs, hpost.socks.trans h.socks, hpost.fds.trans h.fds,
    hpost.blocks.blocks.trans h.blocks, by rw [hpost.blocks.orphans]; exact h.orphans,
    hpost.tryNl.trans h.tryNl, hpost.sockfd.trans h.sockfd, h.known,
    ⟨requests, (congrArg Prod.fst hpost.requests.told).trans hreqs, hdelivered⟩,
    (congrArg Prod.snd hpost.requests.told).trans h.carriedOut⟩

theorem succeeded_snoc (useNl : Bool) (log : List (Command × Int)) (c : Command) (r : Int) :
    succeeded useNl (log ++ [(c, r)]) =
      succeeded useNl log ++ (if r = 0 then c.meaning useNl else none).toList := by
  simp only [succeeded, List.filterMap_append]
  cases h : (if r = 0 then c.meaning useNl else none) <;> simp [h]

theorem Sim.command {c : Command} {q' : NlHeap} {v' : Statics} {r : Int}
    (h : Sim nl q₀ useNl fd p q v) (hpost : CommandPost q v (c.sent nl v) q' v' r) :
    Sim nl q₀ useNl fd { p with log := p.log ++ [(c, r)] } q' v' := by
  obtain ⟨requests, hreqs, hdelivered⟩ := h.delivered
  have htold := hpost.told
  rw [h.tryNl] at htold
  have hnew : ∃ requests', q'.requests nl = q₀.requests nl ++ requests' ∧
      Delivered useNl (p.log ++ [(c, r)]) requests' := by
    rcases htold with ⟨rfl, request, hmeaning, htold⟩ | ⟨hr, -, hsame | ⟨request, hmeaning, hreqs'⟩⟩
    · have hreqs' : q'.requests nl = q.requests nl ++ [request] := congrArg Prod.fst htold
      rw [hreqs, List.append_assoc] at hreqs'
      exact ⟨_, hreqs', .done c request hdelivered hmeaning⟩
    · exact ⟨requests, hsame.trans hreqs, .lost c hdelivered hr⟩
    · rw [hreqs, List.append_assoc] at hreqs'
      exact ⟨_, hreqs', .unanswered c request hdelivered hr hmeaning⟩
  have hcarried : q'.carriedOut nl =
      q₀.carriedOut nl ++ succeeded useNl (p.log ++ [(c, r)]) := by
    rw [succeeded_snoc, ← List.append_assoc, ← h.carriedOut]
    rcases htold with ⟨hr, request, hmeaning, htold⟩ | ⟨hr, hsame, -⟩
    · rw [if_pos hr, hmeaning]
      exact congrArg Prod.snd htold
    · rw [if_neg hr, hsame]
      exact (List.append_nil _).symm
  exact ⟨hpost.done.msgs.trans h.msgs, hpost.done.socks.trans h.socks, hpost.done.fds.trans h.fds,
    hpost.blocks.blocks.trans h.blocks, by rw [hpost.blocks.orphans]; exact h.orphans,
    hpost.tryNl.trans h.tryNl, hpost.sockfd.trans h.sockfd, h.known, hnew, hcarried⟩

/-! ## Services that have been told of -/

theorem read_bind_ok {β γ : Type} {x : Read β} {f : β → Read γ} {c : γ} (h : x >>= f = .ok c) :
    ∃ b, x = .ok b ∧ f b = .ok c := by
  cases x with
  | ok b => exact ⟨b, rfl, h⟩
  | error fault => cases h

theorem serviceEntryKey_numDests {attrs : Attrs} {entry entry' : ServiceEntry}
    (h : serviceEntryKey nl attrs entry = .ok entry') : entry'.numDests = entry.numDests := by
  unfold serviceEntryKey at h
  split_ifs at h
  · obtain ⟨mark, -, h⟩ := read_bind_ok h
    cases h
    rfl
  · obtain ⟨protocol, -, h⟩ := read_bind_ok h
    obtain ⟨addr, -, h⟩ := read_bind_ok h
    obtain ⟨port, -, h⟩ := read_bind_ok h
    cases h
    rfl

theorem serviceEntryPe_numDests {attrs : Attrs} {entry entry' : ServiceEntry}
    (h : serviceEntryPe attrs entry = .ok entry') : entry'.numDests = entry.numDests := by
  unfold serviceEntryPe at h
  split_ifs at h
  · obtain ⟨name, -, h⟩ := read_bind_ok h
    cases h
    rfl
  · cases h
    rfl

/-- Over netlink no service is said to have destinations. -/
theorem serviceEntry_numDests {attrs : Attrs} {entry : ServiceEntry}
    (h : serviceEntry nl attrs = .ok (some entry)) : entry.numDests = 0 := by
  unfold serviceEntry at h
  by_cases hhas : HasServiceAttrs attrs
  · rw [if_pos hhas] at h
    obtain ⟨af, -, h⟩ := read_bind_ok h
    obtain ⟨keyed, hkey, h⟩ := read_bind_ok h
    obtain ⟨schedName, -, h⟩ := read_bind_ok h
    obtain ⟨withPe, hpe, h⟩ := read_bind_ok h
    obtain ⟨netmask, -, h⟩ := read_bind_ok h
    obtain ⟨timeout, -, h⟩ := read_bind_ok h
    obtain ⟨flags, -, h⟩ := read_bind_ok h
    obtain ⟨stats, -, h⟩ := read_bind_ok h
    have hzero : withPe.numDests = 0 :=
      (serviceEntryPe_numDests hpe).trans (serviceEntryKey_numDests hkey)
    cases stats with
    | none => cases h
    | some stats64 =>
      cases h
      exact hzero
  · rw [if_neg hhas] at h
    cases h

theorem serviceOf_numDests {msg : Bytes} {entry : ServiceEntry} (h : serviceOf nl msg = some entry) :
    entry.numDests = 0 := by
  simp only [serviceOf, entryOf, Option.bind_eq_bind, Option.bind_eq_some_iff] at h
  obtain ⟨attrs, -, nla, -, inner, -, h⟩ := h
  cases hentry : serviceEntry nl inner with
  | error fault => rw [hentry] at h; cases h
  | ok result =>
    rw [hentry] at h
    have hresult : result = some entry := h
    rw [hresult] at hentry
    exact serviceEntry_numDests hentry

theorem mapM_serviceOf_numDests {ms : List Bytes} {entries : List ServiceEntry}
    (h : ms.mapM (serviceOf nl) = some entries) : ∀ e ∈ entries, e.numDests = 0 := by
  induction ms generalizing entries with
  | nil =>
    cases h
    exact fun _ he => by cases he
  | cons m ms ih =>
    simp only [List.mapM_cons, Option.bind_eq_bind, Option.bind_eq_some_iff, Option.pure_def,
      Option.some.injEq] at h
    obtain ⟨entry, hentry, rest, hrest, rfl⟩ := h
    intro e he
    rcases List.mem_cons.1 he with rfl | he
    · exact serviceOf_numDests hentry
    · exact ih hrest e he

/-! ## A client -/

/-- Every function keeps the relation, if the client may call it. -/
theorem api_wp (fresh : Fresh) (a : Api) (h : Sim nl q₀ useNl fd p q v)
    (hallow : apiRules.allows p a) :
    Stateful.wp (nlRules nl) (a.prog nl fresh)
      (fun q' v' r => Sim nl q₀ useNl fd (apiRules.next p a r) q' v') (tableFault nl False) q v := by
  cases a with
  | getinfo =>
    exact Stateful.wp_mono (fun _ _ _ hpost => h.infoPost hpost) (fun _ _ hx => hx) ipvsGetinfo_wp
  | version => exact h
  | command c =>
    exact Stateful.wp_mono (fun _ _ _ hpost => h.command hpost) (fun _ _ hx => hx) c.prog_wp
  | getServices =>
    refine Stateful.wp_mono ?_ (fun _ _ hx => hx) (ipvsGetServices_wp fresh.service)
    intro q' v' r hpost
    refine h.getPost hpost fun hnl e he => ?_
    cases r with
    | none => cases he
    | some get =>
      obtain ⟨ms, -, hcontent⟩ := hpost.content (h.tryNl.trans hnl) get rfl
      exact mapM_serviceOf_numDests hcontent.entries e he
  | getDests svc =>
    have hover : DestsOverrun v.tryNl svc → False := fun hover =>
      hover.2 (h.known (h.tryNl.symm.trans hover.1) svc hallow)
    exact Stateful.wp_mono (fun _ _ _ hpost => h.ownPost hpost) (fun _ _ hx => hx.mono hover)
      (ipvsGetDests_wp fresh.dest svc)
  | getService fwmark af protocol addr port =>
    refine Stateful.wp_mono ?_ (fun _ _ hx => hx) (ipvsGetService_wp fwmark af protocol addr port)
    intro q' v' r hpost
    refine h.getPost hpost fun hnl e he => ?_
    cases r with
    | none => cases he
    | some one =>
      obtain ⟨ms, -, entries, hentries, hhead⟩ := hpost.content (h.tryNl.trans hnl) one rfl
      have hmem : e ∈ entries.head? := by
        rw [← hhead]
        exact Option.mem_toList.1 he
      exact mapM_serviceOf_numDests hentries e (List.mem_of_head? hmem)
  | getTimeout =>
    exact Stateful.wp_mono (fun _ _ _ hpost => h.ownPost hpost) (fun _ _ hx => hx) ipvsGetTimeout_wp
  | getDaemon =>
    exact Stateful.wp_mono (fun _ _ _ hpost => h.ownPost hpost) (fun _ _ hx => hx) ipvsGetDaemon_wp
  | access block =>
    have howned : block ∈ p.owned := hallow
    show Stateful.wp (nlRules nl) (Lib.access block) _ _ q v
    rw [wp_access, h.blocks]
    exact ⟨List.mem_append_left _ howned, h⟩
  | free block =>
    have howned : block ∈ p.owned := hallow
    show Stateful.wp (nlRules nl) (Lib.free (some block)) _ _ q v
    rw [wp_free]
    refine ⟨fun i hi => ?_, h.msgs, h.socks, h.fds, ?_, h.orphans, h.tryNl, h.sockfd, h.known,
      h.delivered, h.carriedOut⟩
    · cases hi
      rw [h.blocks]
      exact List.mem_append_left _ howned
    · show q.blocks.erase block = p.owned.erase block ++ q₀.blocks
      rw [h.blocks, List.erase_append_left _ howned]

theorem tuneTimeouts_wp (timeouts : Timeouts) :
    (tuneTimeouts timeouts).wp apiRules (fun p _ => p.owned = []) (fun _ _ => False) .empty := by
  refine ⟨trivial, fun code => ⟨trivial, fun r => ?_⟩⟩
  cases r with
  | none => rfl
  | some t =>
    exact ⟨List.mem_cons_self, fun _ => ⟨List.mem_cons_self, fun _ => List.erase_cons_head ..⟩⟩

end Ipvshttpd.Libipvs
