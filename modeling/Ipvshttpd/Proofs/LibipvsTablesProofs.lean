import Ipvshttpd.Proofs.LibipvsCommandsProofs
import Ipvshttpd.Proofs.LibipvsRecordsProofs

/-!
# Proofs: the tables that libipvs fetches

What the functions that return a block leave allocated, whatever libnl, the heap and the kernel
answer.
-/

namespace Ipvshttpd.Libipvs

open CLib Netlink Resumption Lib

variable {σ : Type} {nl : Libnl} {q : NlHeap} {v : Statics}

/-! ## Queries -/

/-- The commands that only ask for tables. -/
def IsQuery (cmd : Nat) : Prop :=
  cmd = ipvsCmdGetInfo ∨ cmd = ipvsCmdGetService ∨ cmd = ipvsCmdGetDest ∨ cmd = ipvsCmdGetTimeout ∨
    cmd = ipvsCmdGetDaemon

theorem query_request {m : NlMsg} (h : IsQuery m.cmd) : (Sent.netlink m).request nl = none := by
  have hread : ∀ attrs, readRequest nl m.cmd attrs = none := by
    intro attrs
    rcases h with h | h | h | h | h <;> rw [h] <;> rfl
  simp only [Sent.request, hread]
  cases nl.nlaParse ipvsCmdAttrMax ipvsCmdPolicy (nl.stream m.attrs) <;> rfl

/-- The kernel has got no other request, and has answered none. -/
structure NlHeap.SameRequests (nl : Libnl) (q q' : NlHeap) : Prop where
  requests : q'.requests nl = q.requests nl
  handled : q'.handled nl = q.handled nl

theorem NlHeap.SameRequests.trans {q' q'' : NlHeap} (h : q.SameRequests nl q')
    (h' : q'.SameRequests nl q'') : q.SameRequests nl q'' :=
  ⟨h'.requests.trans h.requests, h'.handled.trans h.handled⟩

theorem NlHeap.SameRequests.carriedOut {q' : NlHeap} (h : q.SameRequests nl q') :
    q'.carriedOut nl = q.carriedOut nl := by
  simp only [NlHeap.carriedOut, h.handled]

theorem NlHeap.SameRequests.told {q' : NlHeap} (h : q.SameRequests nl q') :
    q'.told nl = q.told nl :=
  Prod.ext h.requests h.carriedOut

theorem NlHeap.SameNet.sameRequests {q' : NlHeap} (h : q.SameNet q') : q.SameRequests nl q' :=
  ⟨by simp only [NlHeap.requests, h.sent], by simp only [NlHeap.handled, h.answered]⟩

theorem NlHeap.Done.sameRequests {q' : NlHeap} {m : NlMsg} {rejects : Prop} {r : Int}
    (h : q.Done [.netlink m] rejects r q') (hm : IsQuery m.cmd) : q.SameRequests nl q' := by
  have hsent : q'.sent = q.sent ∨ q'.sent = q.sent ++ [.netlink m] := by
    by_cases hr : r = 0
    · exact Or.inr (h.success hr).1
    · exact (h.failure hr).1
  have hanswered : q'.answered = q.answered ∨
      ∃ confirmed, q'.answered = q.answered ++ [(.netlink m, confirmed)] := by
    by_cases hr : r = 0
    · exact Or.inr ⟨true, (h.success hr).2⟩
    · exact (h.failure hr).2.imp_right fun hanswered => hanswered.imp fun _ h => h.2
  constructor
  · rcases hsent with hsent | hsent
    · simp only [NlHeap.requests, hsent]
    · simp only [NlHeap.requests, hsent, List.filterMap_append, List.filterMap_cons,
        List.filterMap_nil, query_request hm, List.append_nil]
  · rcases hanswered with hanswered | ⟨confirmed, hanswered⟩
    · simp only [NlHeap.handled, hanswered]
    · simp only [NlHeap.handled, hanswered, List.filterMap_append, List.filterMap_cons,
        List.filterMap_nil, query_request hm, Option.map_none, List.append_nil]

/-! ## Tables -/

/-- The orphans `os` are those of the heap `q`, and one more if a block has been lost. -/
def NlHeap.Lost (q : NlHeap) (os : List Nat) : Prop :=
  os = q.orphans ∨ ∃ block, os = block :: q.orphans

theorem NlHeap.Lost.length_le {os : List Nat} (h : q.Lost os) : os.length ≤ q.orphans.length + 1 := by
  rcases h with rfl | ⟨block, rfl⟩
  · exact Nat.le_succ _
  · exact Nat.le_refl _

/-- The only new block is `block`. If it is NULL, a block may have been lost. -/
structure NlHeap.Returned (q : NlHeap) (block : Option Nat) (q' : NlHeap) : Prop where
  msgs : q'.msgs = q.msgs
  socks : q'.socks = q.socks
  fds : q'.fds = q.fds
  blocks : q'.blocks = block.toList ++ q.blocks
  kept : block ≠ none → q'.orphans = q.orphans
  lost : q.Lost q'.orphans

/-- The object of a request owns a block that the heap `q` does not have, or a reallocation has
    failed and the block is an orphan. -/
structure Owned (q : NlHeap) (ptr : σ → Option Nat) (bs os : List Nat) (arg : σ) : Prop where
  blocks : bs = (ptr arg).toList ++ q.blocks
  kept : ptr arg ≠ none → os = q.orphans
  lost : ptr arg = none → ∃ block, os = block :: q.orphans

theorem Owned.orphans {ptr : σ → Option Nat} {bs os : List Nat} {arg : σ}
    (h : Owned q ptr bs os arg) : q.Lost os := by
  by_cases hptr : ptr arg = none
  · exact Or.inr (h.lost hptr)
  · exact Or.inl (h.kept hptr)

theorem Owned.orphans_ne_nil {ptr : σ → Option Nat} {bs os : List Nat} {arg : σ}
    (h : Owned q ptr bs os arg) (hptr : ptr arg = none) : os ≠ [] := by
  obtain ⟨block, rfl⟩ := h.lost hptr
  exact List.cons_ne_nil _ _

theorem Owned.mem {ptr : σ → Option Nat} {bs os : List Nat} {arg : σ} {block : Nat}
    (h : Owned q ptr bs os arg) (hptr : ptr arg = some block) : block ∈ bs := by
  rw [h.blocks, hptr]
  exact List.mem_cons_self

/-- The object grows by `realloc`. -/
theorem realloc_owned {ptr : σ → Option Nat} {q' : NlHeap} {arg : σ} {block : Nat}
    (hown : Owned q ptr q'.blocks q'.orphans arg) (hptr : ptr arg = some block)
    {post : NlHeap → Statics → Option Nat → Prop} {exn : NlHeap → Fault → Prop}
    (hok : ∀ block' q'', q'.SameNet q'' → q''.blocks = block' :: q.blocks →
      q''.orphans = q.orphans → post q'' v (some block'))
    (hnull : ∀ q'' v', q'.SameNet q'' → v.SameWay v' → q''.blocks = q.blocks →
      q''.orphans = block :: q.orphans → post q'' v' none) :
    Stateful.wp (nlRules nl) (realloc block) post exn q' v := by
  have hblocks : q'.blocks = block :: q.blocks := by rw [hown.blocks, hptr]; rfl
  have herase : q'.blocks.erase block = q.blocks := by rw [hblocks, List.erase_cons_head]
  have horphans : q'.orphans = q.orphans := hown.kept (by rw [hptr]; exact Option.some_ne_none _)
  rw [wp_realloc]
  refine ⟨hown.mem hptr, fun block' => ?_, fun err => ?_⟩
  · exact hok block' _ ⟨rfl, rfl, rfl, rfl, rfl, rfl, rfl, rfl⟩ (congrArg (List.cons block') herase)
      horphans
  · exact hnull _ _ ⟨rfl, rfl, rfl, rfl, rfl, rfl, rfl, rfl⟩ ⟨rfl, rfl, rfl⟩ herase
      (congrArg (List.cons block) horphans)

/-- The object of a request for a table: what it owns, and what `content` says about the table after
    the messages that have been accepted. -/
def TableInv {τ : Type} (q : NlHeap) (blockOf : τ → Nat) (content : List Bytes → τ → Prop) :
    ObjectInv (Option τ) := fun ms bs os tablep =>
  Owned q (·.map blockOf) bs os tablep ∧ ∀ accepted ∈ ms, ∀ table ∈ tablep, content accepted table

theorem TableInv.weak {τ : Type} {blockOf : τ → Nat} {content : List Bytes → τ → Prop}
    (ms : List Bytes) (bs os : List Nat) (tablep : Option τ)
    (h : TableInv q blockOf content (some ms) bs os tablep) :
    TableInv q blockOf content none bs os tablep :=
  ⟨h.1, fun _ h => by cases h⟩

/-- Freeing the block of the object leaves the heap that the request began with. -/
theorem Owned.free {ptr : σ → Option Nat} {q' : NlHeap} {arg : σ}
    (h : Owned q ptr q'.blocks q'.orphans arg) :
    (∀ i ∈ ptr arg, i ∈ q'.blocks) ∧ (q'.freeBlock (ptr arg)).blocks = q.blocks := by
  have hblocks := h.blocks
  cases hptr : ptr arg with
  | none =>
    rw [hptr] at hblocks
    exact ⟨fun _ hi => (by cases hi), hblocks⟩
  | some block =>
    rw [hptr] at hblocks
    have hcons : q'.blocks = block :: q.blocks := hblocks
    refine ⟨fun i hi => (by cases hi; rw [hcons]; exact List.mem_cons_self), ?_⟩
    show q'.blocks.erase block = q.blocks
    rw [hcons, List.erase_cons_head]

/-- A callback for tables keeps the invariant if `content` is kept by one more entry. It faults if the
    table is full, if a payload is too short, or after a reallocation has failed. -/
theorem tableParseCb_keeps {τ ε : Type} {exn : NlHeap → Fault → Prop} {type maxtype : Nat}
    {policy : Nat → NlaPolicy} {blockOf : τ → Nat} {full : τ → Bool}
    {read : τ → Attrs → Read (Option ε)} {grow : τ → ε → Nat → τ}
    {content : List Bytes → τ → Prop}
    (hgrow : ∀ table entry block, blockOf (grow table entry block) = block)
    (hcontent : ∀ ms m table entry block, content ms table → full table = false →
      entryOf nl type maxtype policy (read table) m = some entry →
      content (ms ++ [m]) (grow table entry block))
    (hnull : ∀ q : NlHeap, q.orphans ≠ [] → exn q .nullPointer)
    (hread : ∀ (q : NlHeap) m table attrs fault, m ∈ q.received →
      entryAttrs nl type maxtype policy m = some attrs → read table attrs = .error fault →
      exn q (.read fault))
    (hfull : ∀ ms table, content ms table → full table = true → ∀ q, exn q .writePastBlock) :
    (tableParseCb nl type maxtype policy blockOf full read grow).Keeps nl exn
      (TableInv q blockOf content) := by
  intro ms m arg q' v hm hinv
  cases arg with
  | none => exact hnull q' (hinv.1.orphans_ne_nil rfl)
  | some table =>
    have hfail : q'.SameNet q' ∧ v.SameWay v ∧ TableInv q blockOf content
        (if (-1 : Int) < 0 then none else some (ms ++ [m])) q'.blocks q'.orphans (some table) :=
      ⟨.refl q', .refl v, TableInv.weak ms _ _ _ hinv⟩
    simp only [tableParseCb, Stateful.wp_bind, wp_access]
    refine ⟨hinv.1.mem rfl, ?_⟩
    split
    case h_1 => exact hfail
    case h_2 attrs hattrs =>
    split
    case h_1 => exact hfail
    case h_2 nla hnla =>
    split
    case h_1 => exact hfail
    case h_2 inner hinner =>
    refine Stateful.wp_ite _ _ _ _ (fun h => hfull ms table (hinv.2 ms rfl table rfl) h q')
      fun hroom => ?_
    rw [Stateful.wp_bind]
    have hentryAttrs : entryAttrs nl type maxtype policy m = some inner := by
      simp only [entryAttrs, hattrs, Option.bind_eq_bind, Option.bind_some, hnla, hinner]
    refine wp_ofRead (fun entry hentry => ?_) fun fault hfault =>
      hread q' m table inner fault hm hentryAttrs hfault
    cases entry with
    | none => exact hfail
    | some entry =>
      have hof : entryOf nl type maxtype policy (read table) m = some entry := by
        simp only [entryOf, hattrs, Option.bind_eq_bind, Option.bind_some, hnla, hinner, hentry]
      have hnonneg : (if (0 : Int) < 0 then none else some (ms ++ [m])) = some (ms ++ [m]) := rfl
      simp only [Stateful.wp_bind]
      refine realloc_owned hinv.1 rfl ?_ ?_
      · intro block' q'' hnet hblocks horphans
        have hptr : Option.map blockOf (some (grow table entry block')) = some block' :=
          congrArg some (hgrow table entry block')
        have hown : Owned q (·.map blockOf) q''.blocks q''.orphans
            (some (grow table entry block')) :=
          ⟨by rw [hptr]; exact hblocks, fun _ => horphans, fun h => by rw [hptr] at h; cases h⟩
        refine ⟨hnet, .refl v, hown, fun accepted hms table' htable' => ?_⟩
        cases hms
        cases htable'
        exact hcontent ms m table entry block' (hinv.2 ms rfl table rfl)
          (Bool.eq_false_iff.2 hroom) hof
      · intro q'' v' hnet hway hblocks horphans
        exact ⟨hnet, hway, ⟨hblocks, fun h => absurd rfl h, fun _ => ⟨_, horphans⟩⟩,
          fun _ _ _ h => by cases h⟩

/-! ## Services -/

/-- The services of the accepted messages, in their order, and room for one more. -/
structure ServicesContent (nl : Libnl) (ms : List Bytes) (get : GetServices) : Prop where
  entries : ms.mapM (serviceOf nl) = some get.entrytable
  room : get.capacity = get.entrytable.length + 1

theorem tableFault.mono {overrun overrun' : Prop} (himp : overrun → overrun') {fault : Fault}
    (h : tableFault nl overrun q fault) : tableFault nl overrun' q fault := by
  cases fault with
  | nullPointer => exact h
  | writePastBlock => exact h.imp_left himp
  | read fault => exact h

theorem mapM_snoc {α β : Type} {f : α → Option β} {xs : List α} {ys : List β} {x : α} {y : β}
    (h : xs.mapM f = some ys) (hx : f x = some y) : (xs ++ [x]).mapM f = some (ys ++ [y]) := by
  simp [List.mapM_append, h, hx]

theorem entryAttrs_parse {type maxtype : Nat} {policy : Nat → NlaPolicy} {m : Bytes} {attrs : Attrs}
    (h : entryAttrs nl type maxtype policy m = some attrs) :
    ∃ nla, nl.nlaParse maxtype policy nla = some attrs := by
  simp only [entryAttrs, Option.bind_eq_bind, Option.bind_eq_some_iff] at h
  obtain ⟨_, -, nla, -, h⟩ := h
  exact ⟨nla, h⟩

theorem services_keeps :
    (ipvsServicesParseCb nl).Keeps nl (tableFault nl False)
      (TableInv q GetServices.block (ServicesContent nl)) := by
  refine tableParseCb_keeps (fun _ _ _ => rfl) ?_ (fun _ h => h) ?_ ?_
  · intro ms m get entry block hcontent _ hentry
    exact ⟨mapM_snoc hcontent.entries hentry, by simp [GetServices.grow]⟩
  · intro q m table attrs fault hm hattrs hfault
    obtain ⟨nla, hnla⟩ := entryAttrs_parse hattrs
    obtain ⟨rfl, hover⟩ := (serviceEntry_past hnla fault).1 hfault
    exact ⟨m, hm, Or.inl ⟨attrs, hattrs, hover⟩⟩
  · intro ms get hcontent hfull
    have hroom := hcontent.room
    simp only [GetServices.full, decide_eq_true_eq] at hfull
    omega

/-- What a function that returns a block leaves, with what `content` says about the block after the
    messages with which the kernel has answered the request `asked`. -/
structure GetPost {τ : Type} (nl : Libnl) (q : NlHeap) (v : Statics) (asked : NlMsg)
    (blockOf : τ → Nat) (content : List Bytes → τ → Prop) (q' : NlHeap) (v' : Statics)
    (r : Option τ) : Prop where
  returned : q.Returned (r.map blockOf) q'
  tryNl : v'.tryNl = v.tryNl
  sockfd : v'.sockfd = v.sockfd
  requests : q.SameRequests nl q'
  content : v.tryNl = true → ∀ t ∈ r, ∃ ms, q.Hears [.netlink asked] ms q' ∧ content ms t

theorem GetPost.null {τ : Type} {asked : NlMsg} {blockOf : τ → Nat}
    {content : List Bytes → τ → Prop}
    {q' : NlHeap} {v' : Statics} (hmsgs : q'.msgs = q.msgs) (hsocks : q'.socks = q.socks)
    (hfds : q'.fds = q.fds) (hblocks : q'.blocks = q.blocks)
    (horphans : q.Lost q'.orphans)
    (htry : v'.tryNl = v.tryNl) (hfd : v'.sockfd = v.sockfd)
    (htold : q.SameRequests nl q') : GetPost nl q v asked blockOf content q' v' none :=
  ⟨⟨hmsgs, hsocks, hfds, hblocks, fun h => absurd rfl h, horphans⟩, htry, hfd, htold,
    fun _ _ h => by cases h⟩

@[simp] theorem freeBlock_msgs (block : Option Nat) : (q.freeBlock block).msgs = q.msgs := by
  cases block <;> rfl

@[simp] theorem freeBlock_socks (block : Option Nat) : (q.freeBlock block).socks = q.socks := by
  cases block <;> rfl

@[simp] theorem freeBlock_fds (block : Option Nat) : (q.freeBlock block).fds = q.fds := by
  cases block <;> rfl

@[simp] theorem freeBlock_orphans (block : Option Nat) :
    (q.freeBlock block).orphans = q.orphans := by
  cases block <;> rfl

theorem allocBlock_sameRequests (block : Nat) : q.SameRequests nl (q.allocBlock block) := ⟨rfl, rfl⟩

theorem freeBlock_sameRequests (block : Option Nat) : q.SameRequests nl (q.freeBlock block) := by
  cases block <;> exact ⟨rfl, rfl⟩

@[simp] theorem freeBlock_received (block : Option Nat) :
    (q.freeBlock block).received = q.received := by
  cases block <;> rfl

@[simp] theorem freeBlock_heard (block : Option Nat) : (q.freeBlock block).heard = q.heard := by
  cases block <;> rfl

/-- Nothing is returned, and the block is freed. -/
theorem GetPost.freed {τ : Type} {asked : NlMsg} {blockOf : τ → Nat}
    {content : List Bytes → τ → Prop} {q' : NlHeap} {v' : Statics} {block : Option Nat}
    (hmsgs : q'.msgs = q.msgs) (hsocks : q'.socks = q.socks) (hfds : q'.fds = q.fds)
    (hblocks : (q'.freeBlock block).blocks = q.blocks) (horphans : q.Lost q'.orphans)
    (htry : v'.tryNl = v.tryNl) (hfd : v'.sockfd = v.sockfd) (htold : q.SameRequests nl q') :
    GetPost nl q v asked blockOf content (q'.freeBlock block) v' none := by
  refine .null ?_ ?_ ?_ hblocks ?_ htry hfd (htold.trans (freeBlock_sameRequests block))
  · rw [freeBlock_msgs, hmsgs]
  · rw [freeBlock_socks, hsocks]
  · rw [freeBlock_fds, hfds]
  · rw [freeBlock_orphans]
    exact horphans

/-- A request for a table: the table is returned if the request succeeds, and its block is freed if it
    fails. `q₀` is the heap without the block. -/
theorem tableRequest_wp {τ : Type} {exn : NlHeap → Fault → Prop} {q₀ : NlHeap} {v₀ : Statics}
    {func : Callback (Option τ)} {blockOf : τ → Nat} {content : List Bytes → τ → Prop}
    (hfunc : func.Keeps nl exn (TableInv q₀ blockOf content)) {fill : Nat → Lib Int}
    {attrs : List Attr} (hfill : Fills nl exn fill attrs) {cmd : Nat} (hquery : IsQuery cmd)
    (flags : Nat) {table : τ}
    (hinv : TableInv q₀ blockOf content (some []) q.blocks q.orphans (some table))
    (hmsgs : q.msgs = q₀.msgs) (hsocks : q.socks = q₀.socks) (hfds : q.fds = q₀.fds)
    (hreceived : q.received = q₀.received) (hheard : q.heard = q₀.heard)
    (htold : q₀.SameRequests nl q) (htry : v.tryNl = v₀.tryNl) (hfd : v.sockfd = v₀.sockfd) :
    Stateful.wp (nlRules nl) (do
      let r ← nlRequest cmd flags fill func (some table)
      if r.1 = 0 then pure r.2
      else do
        free (r.2.map blockOf)
        pure none) (GetPost nl q₀ v₀ (requestMsg v cmd flags attrs) blockOf content) exn q v := by
  rw [Stateful.wp_bind]
  refine Stateful.wp_mono ?_ (fun _ _ h => h)
    (nlRequest_wp hfunc TableInv.weak hfill cmd flags _ hinv)
  rintro q' v' r ⟨hdone, hway, hobject, hresult⟩
  have hmsgs' := hdone.msgs.trans hmsgs
  have hsocks' := hdone.socks.trans hsocks
  have hfds' := hdone.fds.trans hfds
  have htold' := htold.trans (hdone.sameRequests hquery)
  have htry' := hway.tryNl.trans htry
  have hfd' := hway.sockfd.trans hfd
  refine Stateful.wp_ite _ _ _ _ (fun hr => ?_) fun _ => ?_
  · refine ⟨⟨hmsgs', hsocks', hfds', hobject.1.blocks, hobject.1.kept, hobject.1.orphans⟩, htry', hfd',
      htold', fun _ t ht => ?_⟩
    obtain ⟨ms, hms, hinv'⟩ := hresult hr
    exact ⟨ms, ⟨by rw [hms.received, hreceived], by rw [hms.heard, hheard]⟩, hinv'.2 ms rfl t ht⟩
  · obtain ⟨hmem, hblocks⟩ := hobject.1.free
    simp only [Stateful.wp_bind, wp_free, Stateful.wp_pure]
    exact ⟨hmem, .freed hmsgs' hsocks' hfds' hblocks hobject.1.orphans htry' hfd' htold'⟩

/-- The block that has just been allocated. -/
theorem owned_alloc {ptr : σ → Option Nat} {arg : σ} {block : Nat} (hptr : ptr arg = some block) :
    Owned q ptr (q.allocBlock block).blocks (q.allocBlock block).orphans arg :=
  ⟨by rw [hptr]; rfl, fun _ => rfl, fun h => by rw [hptr] at h; cases h⟩

/-- Freeing the two blocks that have just been allocated, the first one first. -/
theorem free_two (block block' : Nat) :
    (∀ i ∈ some block, i ∈ ((q.allocBlock block).allocBlock block').blocks) ∧
    (∀ i ∈ some block',
      i ∈ (((q.allocBlock block).allocBlock block').freeBlock (some block)).blocks) ∧
    ((((q.allocBlock block).allocBlock block').freeBlock (some block)).freeBlock
      (some block')).blocks = q.blocks := by
  have hfirst : (((q.allocBlock block).allocBlock block').freeBlock (some block)).blocks =
      block' :: q.blocks := by
    show (block' :: block :: q.blocks).erase block = block' :: q.blocks
    by_cases heq : block' = block
    · subst heq
      exact List.erase_cons_head ..
    · rw [List.erase_cons_tail (by simpa using heq), List.erase_cons_head]
  refine ⟨fun i hi => ?_, fun i hi => ?_, ?_⟩
  · cases hi
    exact List.mem_cons_of_mem _ List.mem_cons_self
  · cases hi
    rw [hfirst]
    exact List.mem_cons_self
  · show List.erase _ block' = q.blocks
    rw [hfirst, List.erase_cons_head]

/-- The answer to a `getsockopt` that has more entries than there is room for is on record. -/
theorem overfull_gets {opt : GetOpt} {data : opt.Data} (h : opt.overfull data = true) :
    (q.gets opt data).overfull = true := by
  show (q.overfull || opt.overfull data) = true
  rw [h, Bool.or_true]

/-- Freeing the block that has been allocated last. -/
theorem free_last {q' : NlHeap} {block : Nat} (h : q'.blocks = block :: q.blocks) :
    (∀ i ∈ some block, i ∈ q'.blocks) ∧ (q'.freeBlock (some block)).blocks = q.blocks := by
  refine ⟨fun i hi => ?_, ?_⟩
  · cases hi
    rw [h]
    exact List.mem_cons_self
  · show q'.blocks.erase block = q.blocks
    rw [h, List.erase_cons_head]

/-- The table in the block `getk`, where `getsockopt` has written it, is copied to `block`. It is only
    too long for that if it is longer than what the kernel was asked for. -/
theorem tableCopy_wp {τ : Type} {asked : NlMsg} {blockOf : τ → Nat}
    {content : List Bytes → τ → Prop} {overrun many : Prop} [Decidable many] {v₀ : Statics}
    {block getk : Nat} {opt : GetOpt} {data : opt.Data} {table : τ}
    (hmany : many → opt.overfull data = true) (hblock : blockOf table = block)
    (hnl : ¬ v₀.tryNl = true) (htry : v.tryNl = v₀.tryNl) (hfd : v.sockfd = v₀.sockfd) :
    Stateful.wp (nlRules nl) (do
      access getk
      access block
      if many then Stateful.throw .writePastBlock
      else do
        free (some getk)
        pure (some table)) (GetPost nl q v₀ asked blockOf content) (tableFault nl overrun)
      (((q.allocBlock block).allocBlock getk).gets opt data) v := by
  simp only [Stateful.wp_bind, wp_access]
  refine ⟨List.mem_cons_self, List.mem_cons_of_mem _ List.mem_cons_self, ?_⟩
  refine Stateful.wp_ite _ _ _ _ (fun h => Or.inr (overfull_gets (hmany h))) fun _ => ?_
  simp only [Stateful.wp_bind, wp_free, Stateful.wp_pure]
  obtain ⟨hmem, hblocks⟩ := @free_last (q.allocBlock block)
    (((q.allocBlock block).allocBlock getk).gets opt data) getk rfl
  refine ⟨hmem, ⟨rfl, rfl, rfl, ?_, fun _ => rfl, Or.inl rfl⟩, htry, hfd, ⟨rfl, rfl⟩,
    fun h => absurd h hnl⟩
  rw [hblocks, Option.map_some, hblock]
  rfl

theorem ipvsGetServices_wp (fresh : Nat → ServiceEntry) :
    Stateful.wp (nlRules nl) (ipvsGetServices nl fresh)
      (GetPost nl q v (requestMsg v ipvsCmdGetService nlmFDump []) GetServices.block
        (ServicesContent nl)) (tableFault nl False) q v := by
  simp only [ipvsGetServices, Stateful.wp_bind, wp_malloc, Stateful.wp_get]
  refine ⟨fun block => ?_, fun err => .null rfl rfl rfl rfl (Or.inl rfl) rfl rfl ⟨rfl, rfl⟩⟩
  refine Stateful.wp_ite _ _ _ _ (fun hnl => ?_) fun hnl => ?_
  · rw [Stateful.wp_bind, wp_access]
    refine ⟨List.mem_cons_self, tableRequest_wp services_keeps noFill_fills (by simp [IsQuery]) _
      ⟨owned_alloc rfl, ?_⟩ rfl rfl rfl rfl rfl ⟨rfl, rfl⟩ rfl rfl⟩
    intro ms hms get hget
    cases hms
    cases hget
    exact ⟨rfl, rfl⟩
  · simp only [Stateful.wp_bind, wp_malloc, wp_free, Stateful.wp_pure]
    refine ⟨fun getk => ?_, fun err => ?_⟩
    · simp only [wp_setFunc, wp_access, Stateful.wp_get]
      refine ⟨List.mem_cons_self, (wp_getsockopt _ _ _).2 ⟨fun entries => ?_, fun err => ?_⟩⟩
      · exact tableCopy_wp decide_eq_true rfl hnl rfl rfl
      · simp only [Stateful.wp_bind, wp_free, Stateful.wp_pure]
        obtain ⟨hblock, hgetk, hboth⟩ := free_two (q := q) block getk
        exact ⟨hblock, hgetk, .null rfl rfl rfl hboth (Or.inl rfl) rfl rfl ⟨rfl, rfl⟩⟩
    · obtain ⟨hmem, hblocks⟩ := @free_last q (q.allocBlock block) block rfl
      exact ⟨hmem, .null rfl rfl rfl hblocks (Or.inl rfl) rfl rfl ⟨rfl, rfl⟩⟩

/-! ## Destinations -/

/-- The entries that have not been written, followed by the destinations of the accepted messages. If
    the service is said to have destinations, there is no room for any. -/
structure DestsContent (nl : Libnl) (svc : ServiceEntry) (ms : List Bytes) (d : GetDests) :
    Prop where
  entries : ∃ entries, ms.mapM (destOf nl svc.af) = some entries ∧
    d.entrytable = List.replicate svc.numDests.toNat none ++ entries.map some
  af : d.af = svc.af
  full : svc.numDests ≠ 0 → ms = [] ∧ d.capacity = d.entrytable.length
  room : svc.numDests = 0 → d.capacity = d.entrytable.length + 1

/-- The condition under which the request for the destinations of a service may overrun its block. -/
def DestsOverrun (useNl : Bool) (svc : ServiceEntry) : Prop := useNl = true ∧ svc.numDests ≠ 0

theorem dests_keeps (svc : ServiceEntry) :
    (ipvsDestsParseCb nl).Keeps nl (tableFault nl (DestsOverrun true svc))
      (TableInv q GetDests.block (DestsContent nl svc)) := by
  refine tableParseCb_keeps (fun _ _ _ => rfl) ?_ (fun _ h => h) ?_ ?_
  · intro ms m d entry block hcontent hroom hentry
    have hzero : svc.numDests = 0 := by
      by_contra hne
      have hfull := (hcontent.full hne).2
      simp [GetDests.full, hfull] at hroom
    obtain ⟨entries, hms, htable⟩ := hcontent.entries
    rw [hcontent.af] at hentry
    refine ⟨⟨entries ++ [entry], mapM_snoc hms hentry, ?_⟩, hcontent.af, fun h => absurd hzero h,
      fun _ => by simp [GetDests.grow]⟩
    simp [GetDests.grow, htable]
  · intro q m table attrs fault hm hattrs hfault
    obtain ⟨rfl, hover⟩ := (destEntry_past _ fault).1 hfault
    exact ⟨m, hm, Or.inr (Or.inl ⟨attrs, hattrs, hover⟩)⟩
  · intro ms d hcontent hfull q
    refine Or.inl ⟨rfl, fun hzero => ?_⟩
    have hroom := hcontent.room hzero
    simp only [GetDests.full, decide_eq_true_eq] at hfull
    omega

/-- The request for the destinations of a service. -/
def destsMsg (nl : Libnl) (v : Statics) (svc : ServiceEntry) : NlMsg :=
  requestMsg v ipvsCmdGetDest nlmFDump [⟨ipvsCmdAttrService,
    nl.stream (serviceKeyAttrs svc.fwmark svc.af svc.protocol svc.addr svc.port)⟩]

theorem getDestsNl_wp {q₀ : NlHeap} {v₀ : Statics} {svc : ServiceEntry} {block : Nat}
    (hown : Owned q₀ (·.map GetDests.block) q.blocks q.orphans
      (some ⟨block, max svc.numDests.toNat 1, svc.af, List.replicate svc.numDests.toNat none⟩))
    (hmsgs : q.msgs = q₀.msgs) (hsocks : q.socks = q₀.socks) (hfds : q.fds = q₀.fds)
    (hreceived : q.received = q₀.received) (hheard : q.heard = q₀.heard)
    (htold : q₀.SameRequests nl q) (htry : v.tryNl = v₀.tryNl) (hfd : v.sockfd = v₀.sockfd) :
    Stateful.wp (nlRules nl) (getDestsNl nl svc block)
      (GetPost nl q₀ v₀ (destsMsg nl v svc) GetDests.block (DestsContent nl svc))
      (tableFault nl (DestsOverrun true svc)) q v := by
  rw [getDestsNl, Stateful.wp_bind, wp_access]
  refine ⟨hown.mem rfl, tableRequest_wp (dests_keeps svc) (nlaNest_fills _ _) (by simp [IsQuery]) _
    ⟨hown, ?_⟩ hmsgs hsocks hfds hreceived hheard htold htry hfd⟩
  intro ms hms d hd
  cases hms
  cases hd
  refine ⟨⟨[], rfl, by simp⟩, rfl, fun hne => ⟨rfl, ?_⟩, fun hzero => by simp [hzero]⟩
  have hpos : 0 < svc.numDests.toNat :=
    Nat.pos_of_ne_zero fun h => hne (BitVec.eq_of_toNat_eq (by simpa using h))
  simp only [List.length_replicate]
  omega

theorem ipvsGetDests_wp (fresh : Nat → DestEntry) (svc : ServiceEntry) :
    Stateful.wp (nlRules nl) (ipvsGetDests nl fresh svc)
      (GetPost nl q v (destsMsg nl v svc) GetDests.block (DestsContent nl svc))
      (tableFault nl (DestsOverrun v.tryNl svc)) q v := by
  simp only [ipvsGetDests, Stateful.wp_bind, wp_malloc, wp_setFunc, Stateful.wp_get]
  refine ⟨fun block => ?_, fun err => .null rfl rfl rfl rfl (Or.inl rfl) rfl rfl ⟨rfl, rfl⟩⟩
  obtain ⟨hmem, hfree⟩ := @free_last q (q.allocBlock block) block rfl
  refine Stateful.wp_ite _ _ _ _ (fun hnl => ?_) fun hnl => ?_
  · rw [show v.tryNl = true from hnl]
    refine Stateful.wp_ite _ _ _ _ (fun _ => ?_) fun _ => ?_
    · rw [Stateful.wp_bind]
      have hown : Owned q (fun arg : Unit => some block) (q.allocBlock block).blocks
          (q.allocBlock block).orphans () := owned_alloc rfl
      refine realloc_owned hown rfl ?_ ?_
      · intro block' q' hnet hblocks horphans
        exact getDestsNl_wp ⟨hblocks, fun _ => horphans, fun h => by cases h⟩ hnet.msgs hnet.socks
          hnet.fds hnet.received hnet.heard
          ((allocBlock_sameRequests block).trans hnet.sameRequests) (Eq.symm hnl) rfl
      · intro q' v' _ _ _ horphans
        show q'.orphans ≠ []
        rw [horphans]
        exact List.cons_ne_nil _ _
    · exact getDestsNl_wp (owned_alloc rfl) rfl rfl rfl rfl rfl ⟨rfl, rfl⟩ (Eq.symm hnl) rfl
  · refine Stateful.wp_ite _ _ _ _ (fun _ => ?_) fun _ => ?_
    · simp only [Stateful.wp_bind, wp_setErrno, wp_free, Stateful.wp_pure]
      exact ⟨hmem, .null rfl rfl rfl hfree (Or.inl rfl) rfl rfl ⟨rfl, rfl⟩⟩
    · simp only [Stateful.wp_bind, wp_malloc]
      refine ⟨fun dk => ?_, fun err => ?_⟩
      · simp only [wp_access, Stateful.wp_get]
        refine ⟨List.mem_cons_self, (wp_getsockopt _ _ _).2 ⟨fun entries => ?_, fun err => ?_⟩⟩
        · exact tableCopy_wp decide_eq_true rfl hnl rfl rfl
        · simp only [Stateful.wp_bind, wp_free, Stateful.wp_pure]
          obtain ⟨hblock, hdk, hboth⟩ := free_two (q := q) block dk
          exact ⟨hblock, hdk, .null rfl rfl rfl hboth (Or.inl rfl) rfl rfl ⟨rfl, rfl⟩⟩
      · simp only [wp_free, Stateful.wp_pure]
        exact ⟨hmem, .null rfl rfl rfl hfree (Or.inl rfl) rfl rfl ⟨rfl, rfl⟩⟩

/-! ## A single service -/

/-- The first service of the accepted messages. -/
def OneServiceContent (nl : Libnl) (ms : List Bytes) (one : OneService) : Prop :=
  ∃ entries, ms.mapM (serviceOf nl) = some entries ∧ one.entry = entries.head?

/-- The request for one service. -/
def serviceMsg (nl : Libnl) (v : Statics) (fwmark : BitVec 32) (af protocol : BitVec 16)
    (addr : NfInetAddr) (port : BitVec 16) : NlMsg :=
  requestMsg v ipvsCmdGetService 0 [⟨ipvsCmdAttrService,
    nl.stream (serviceAttrs (serviceQuery fwmark af protocol addr port))⟩]

theorem ipvsGetService_wp (fwmark : BitVec 32) (af protocol : BitVec 16) (addr : NfInetAddr)
    (port : BitVec 16) :
    Stateful.wp (nlRules nl) (ipvsGetService nl fwmark af protocol addr port)
      (GetPost nl q v (serviceMsg nl v fwmark af protocol addr port) OneService.block
        (OneServiceContent nl)) (tableFault nl False) q v := by
  simp only [ipvsGetService, Stateful.wp_bind, wp_setFunc, Stateful.wp_get]
  refine Stateful.wp_ite _ _ _ _ (fun hnl => ?_) fun hnl => ?_
  · simp only [Stateful.wp_bind, wp_malloc]
    refine ⟨fun svc => ?_, fun err => .null rfl rfl rfl rfl (Or.inl rfl) rfl rfl ⟨rfl, rfl⟩⟩
    refine ⟨fun block => ?_, fun err => ?_⟩
    · have hinv : TableInv (q.allocBlock svc) GetServices.block (ServicesContent nl) (some [])
          ((q.allocBlock svc).allocBlock block).blocks
          ((q.allocBlock svc).allocBlock block).orphans (some ⟨block, 1, []⟩) := by
        refine ⟨owned_alloc rfl, fun ms hms get hget => ?_⟩
        cases hms
        cases hget
        exact ⟨rfl, rfl⟩
      rw [wp_access]
      refine ⟨List.mem_cons_self, Stateful.wp_mono ?_ (fun _ _ h => h)
        (nlRequest_wp services_keeps TableInv.weak (nlaNest_fills _ _) _ _ _ hinv)⟩
      rintro q' v' r ⟨hdone, hway, hobject, hresult⟩
      obtain ⟨hmem, hblocks⟩ := hobject.1.free
      have hrequests : q.SameRequests nl q' := ((allocBlock_sameRequests svc).trans
        (allocBlock_sameRequests block)).trans (hdone.sameRequests (Or.inr (Or.inl rfl)))
      refine Stateful.wp_ite _ _ _ _ (fun _ => ?_) fun hr => ?_
      · simp only [Stateful.wp_bind, wp_free, Stateful.wp_pure]
        obtain ⟨hmem', hblocks'⟩ := free_last hblocks
        refine ⟨hmem, hmem', .freed ?_ ?_ ?_ hblocks' ?_ hway.tryNl hway.sockfd ?_⟩
        · rw [freeBlock_msgs]; exact hdone.msgs
        · rw [freeBlock_socks]; exact hdone.socks
        · rw [freeBlock_fds]; exact hdone.fds
        · rw [freeBlock_orphans]; exact hobject.1.orphans
        · exact hrequests.trans (freeBlock_sameRequests _)
      · cases htable : r.2 with
        | none =>
          rw [htable] at hobject
          exact hobject.1.orphans_ne_nil rfl
        | some table =>
          have hown := hobject.1
          rw [htable] at hmem hblocks hown
          simp only [Stateful.wp_bind, wp_access, wp_free, Stateful.wp_pure]
          obtain ⟨ms, hms, hinv'⟩ := hresult (not_not.1 hr)
          have hsvc : svc ∈ q'.blocks := by
            rw [hown.blocks]
            exact List.mem_append_right _ List.mem_cons_self
          have horphans : q'.orphans = q.orphans := hown.kept (Option.some_ne_none _)
          refine ⟨hown.mem rfl, hsvc, hmem, ⟨?_, ?_, ?_, hblocks, fun _ => ?_, Or.inl ?_⟩, hway.tryNl,
            hway.sockfd, ?_, fun _ t ht => ?_⟩
          · rw [freeBlock_msgs]; exact hdone.msgs
          · rw [freeBlock_socks]; exact hdone.socks
          · rw [freeBlock_fds]; exact hdone.fds
          · rw [freeBlock_orphans]; exact horphans
          · rw [freeBlock_orphans]; exact horphans
          · exact hrequests.trans (freeBlock_sameRequests _)
          · cases ht
            refine ⟨ms, ⟨by rw [freeBlock_received]; exact hms.received,
              by rw [freeBlock_heard]; exact hms.heard⟩, table.entrytable, ?_, rfl⟩
            exact (hinv'.2 ms rfl table htable).entries
    · simp only [wp_free, Stateful.wp_pure]
      obtain ⟨hmem, hblocks⟩ := @free_last q (q.allocBlock svc) svc rfl
      exact ⟨hmem, .null rfl rfl rfl hblocks (Or.inl rfl) rfl rfl ⟨rfl, rfl⟩⟩
  · simp only [Stateful.wp_bind, wp_malloc]
    refine ⟨fun svc => ?_, fun err => .null rfl rfl rfl rfl (Or.inl rfl) rfl rfl ⟨rfl, rfl⟩⟩
    obtain ⟨hmem, hfree⟩ := @free_last q (q.allocBlock svc) svc rfl
    rw [wp_access]
    refine ⟨List.mem_cons_self, Stateful.wp_ite _ _ _ _ (fun _ => ?_) fun _ => ?_⟩
    · simp only [Stateful.wp_bind, Stateful.wp_get]
      refine (wp_getsockopt _ _ _).2 ⟨fun e => ?_, fun err => ?_⟩
      · rw [Stateful.wp_bind, wp_access]
        exact ⟨List.mem_cons_self, ⟨rfl, rfl, rfl, rfl, fun _ => rfl, Or.inl rfl⟩, rfl, rfl, ⟨rfl, rfl⟩,
          fun h => absurd h hnl⟩
      · simp only [Stateful.wp_bind, wp_free, Stateful.wp_pure]
        exact ⟨hmem, .null rfl rfl rfl hfree (Or.inl rfl) rfl rfl ⟨rfl, rfl⟩⟩
    · simp only [Stateful.wp_bind, wp_setErrno, wp_free, Stateful.wp_pure]
      exact ⟨hmem, .null rfl rfl rfl hfree (Or.inl rfl) rfl rfl ⟨rfl, rfl⟩⟩

/-! ## Timeouts and daemons -/

/-- The object of a request for a record: the heap is as it was, and `content` holds of the record
    after the messages that have been accepted. -/
def RecordInv (q : NlHeap) (content : List Bytes → σ → Prop) : ObjectInv σ := fun ms bs os arg =>
  (bs = q.blocks ∧ os = q.orphans) ∧ ∀ accepted ∈ ms, content accepted arg

theorem RecordInv.weak {content : List Bytes → σ → Prop} (ms : List Bytes) (bs os : List Nat)
    (arg : σ) (h : RecordInv q content (some ms) bs os arg) :
    RecordInv q content none bs os arg := ⟨h.1, fun _ h => by cases h⟩

/-- The record after the accepted messages, each of which `after` carries out. -/
def Updates (after : σ → Bytes → Option σ) (init : σ) (ms : List Bytes) (arg : σ) : Prop :=
  ms.foldlM after init = some arg

theorem Updates.snoc {after : σ → Bytes → Option σ} {init arg arg' : σ} {ms : List Bytes}
    {m : Bytes} (h : Updates after init ms arg) (hm : after arg m = some arg') :
    Updates after init (ms ++ [m]) arg' := by
  rw [Updates, List.foldlM_append, h]
  simp [hm]

theorem RecordInv.mem {content : List Bytes → σ → Prop} {ms : Option (List Bytes)}
    {bs os : List Nat} {arg : σ} {block : Nat} (h : RecordInv q content ms bs os arg)
    (hblock : block ∈ q.blocks) : block ∈ bs := by
  rw [h.1.1]
  exact hblock

theorem timeout_keeps {exn : NlHeap → Fault → Prop} (init : Timeouts) {block : Nat}
    (hblock : block ∈ q.blocks) : (ipvsTimeoutParseCb nl block).Keeps nl exn
      (RecordInv q (Updates (timeoutsAfter nl) init)) := by
  intro ms m u q' v _ hinv
  simp only [ipvsTimeoutParseCb]
  split
  · exact ⟨.refl q', .refl v, RecordInv.weak ms _ _ _ hinv⟩
  · rename_i attrs hattrs
    simp only [Stateful.wp_bind, wp_access]
    refine ⟨hinv.mem hblock, wp_ofRead (fun u' hu' => ?_) fun fault hfault =>
      ((timeoutEntry_past u fault).1 hfault).2.elim⟩
    refine ⟨.refl q', .refl v, hinv.1, fun accepted hms => ?_⟩
    cases hms
    refine (hinv.2 ms rfl).snoc ?_
    simp only [timeoutsAfter, hattrs, Option.bind_eq_bind, Option.bind_some, hu']
    rfl

theorem daemon_keeps (init : DaemonUser × DaemonUser) {block : Nat} (hblock : block ∈ q.blocks) :
    (ipvsDaemonParseCb nl block).Keeps nl (tableFault nl False)
      (RecordInv q (Updates (daemonsAfter nl) init)) := by
  intro ms m u q' v hm hinv
  have hfail : q'.SameNet q' ∧ v.SameWay v ∧ RecordInv q (Updates (daemonsAfter nl) init)
      (if (-1 : Int) < 0 then none else some (ms ++ [m])) q'.blocks q'.orphans u :=
    ⟨.refl q', .refl v, RecordInv.weak ms _ _ _ hinv⟩
  simp only [ipvsDaemonParseCb, Stateful.wp_bind, wp_access]
  refine ⟨hinv.mem hblock, ?_⟩
  split
  case h_1 => exact hfail
  case h_2 attrs hattrs =>
  split
  case h_1 hnone => exact ⟨m, hm, attrs, hattrs, hnone⟩
  case h_2 nla hnla =>
  split
  case h_1 => exact hfail
  case h_2 daemonAttrs hinner =>
  rw [Stateful.wp_bind]
  have hentryAttrs : entryAttrs nl ipvsCmdAttrDaemon ipvsDaemonAttrMax ipvsDaemonPolicy m =
      some daemonAttrs := by
    simp only [entryAttrs, hattrs, Option.bind_eq_bind, Option.bind_some, hnla, hinner]
  refine wp_ofRead (fun dm hdm => ?_) fun fault hfault => ?_
  case refine_2 =>
    obtain ⟨rfl, hover⟩ := (daemonEntry_past _ hinner fault).1 hfault
    exact ⟨m, hm, Or.inr (Or.inr ⟨daemonAttrs, hentryAttrs, hover⟩)⟩
  cases dm with
  | none => exact hfail
  | some dm =>
    refine ⟨.refl q', .refl v, hinv.1, fun accepted hms => ?_⟩
    cases hms
    refine (hinv.2 ms rfl).snoc ?_
    simp only [decide_eq_true_eq] at hdm ⊢
    simp only [daemonsAfter, hattrs, Option.bind_eq_bind, Option.bind_some, hnla, hinner, hdm]
    rfl

theorem fetch_wp {func : IpvsFunc} {cmd flags : Nat} (hquery : IsQuery cmd)
    {callback : Nat → Callback σ} {init : σ} {opt : GetOpt} {convert : opt.Data → σ}
    {exn : NlHeap → Fault → Prop} {content : List Bytes → σ → Prop}
    (hkeeps : ∀ (q : NlHeap) block, block ∈ q.blocks →
      (callback block).Keeps nl exn (RecordInv q content))
    (hinit : content [] init) :
    Stateful.wp (nlRules nl) (fetch func cmd flags callback init opt convert)
      (GetPost nl q v (requestMsg v cmd flags []) Prod.fst fun ms r => content ms r.2) exn q v := by
  simp only [fetch, Stateful.wp_bind, wp_malloc, wp_setFunc, Stateful.wp_get]
  refine ⟨fun block => ?_, fun err => .null rfl rfl rfl rfl (Or.inl rfl) rfl rfl ⟨rfl, rfl⟩⟩
  refine Stateful.wp_ite _ _ _ _ (fun hnl => ?_) fun hnl => ?_
  · rw [Stateful.wp_bind, wp_access]
    refine ⟨List.mem_cons_self, ?_⟩
    rw [Stateful.wp_bind]
    have hinv : RecordInv (q.allocBlock block) content (some []) (q.allocBlock block).blocks
        (q.allocBlock block).orphans init :=
      ⟨⟨rfl, rfl⟩, fun ms hms => (by cases hms; exact hinit)⟩
    refine Stateful.wp_mono ?_ (fun _ _ h => h)
      (nlRequest_wp (hkeeps _ block List.mem_cons_self) RecordInv.weak noFill_fills _ _ _ hinv)
    rintro q' v' r ⟨hdone, hway, hobject, hresult⟩
    have hblocks : q'.blocks = block :: q.blocks := hobject.1.1
    have horphans : q'.orphans = q.orphans := hobject.1.2
    have hrequests : q.SameRequests nl q' :=
      (allocBlock_sameRequests block).trans (hdone.sameRequests hquery)
    refine Stateful.wp_ite _ _ _ _ (fun hr => ?_) fun _ => ?_
    · refine ⟨⟨hdone.msgs, hdone.socks, hdone.fds, hblocks, fun _ => horphans, Or.inl horphans⟩,
        hway.tryNl, hway.sockfd, hrequests, fun _ t ht => ?_⟩
      cases ht
      obtain ⟨ms, hms, hinv'⟩ := hresult hr
      exact ⟨ms, ⟨hms.received, hms.heard⟩, hinv'.2 ms rfl⟩
    · simp only [Stateful.wp_bind, wp_free, Stateful.wp_pure]
      obtain ⟨hmem, hblocks'⟩ := free_last hblocks
      exact ⟨hmem, .freed hdone.msgs hdone.socks hdone.fds hblocks' (Or.inl horphans) hway.tryNl
        hway.sockfd hrequests⟩
  · simp only [Stateful.wp_bind, Stateful.wp_get]
    refine (wp_getsockopt _ _ _).2 ⟨fun data => ?_, fun err => ?_⟩
    · rw [Stateful.wp_bind, wp_access]
      exact ⟨List.mem_cons_self, ⟨rfl, rfl, rfl, rfl, fun _ => rfl, Or.inl rfl⟩, rfl, rfl, ⟨rfl, rfl⟩,
        fun h => absurd h hnl⟩
    · simp only [Stateful.wp_bind, wp_free, Stateful.wp_pure]
      obtain ⟨hmem, hblocks⟩ := @free_last q (q.allocBlock block) block rfl
      exact ⟨hmem, .null rfl rfl rfl hblocks (Or.inl rfl) rfl rfl ⟨rfl, rfl⟩⟩

theorem ipvsGetTimeout_wp :
    Stateful.wp (nlRules nl) (ipvsGetTimeout nl)
      (GetPost nl q v (requestMsg v ipvsCmdGetTimeout 0 []) Prod.fst fun ms r =>
        Updates (timeoutsAfter nl) ⟨0, 0, 0⟩ ms r.2)
      (tableFault nl False) q v :=
  fetch_wp (by simp [IsQuery]) (fun _ _ => timeout_keeps _) rfl

theorem ipvsGetDaemon_wp :
    Stateful.wp (nlRules nl) (ipvsGetDaemon nl)
      (GetPost nl q v (requestMsg v ipvsCmdGetDaemon nlmFDump []) Prod.fst fun ms r =>
        Updates (daemonsAfter nl) (.zero, .zero) ms r.2)
      (tableFault nl False) q v :=
  fetch_wp (by simp [IsQuery]) (fun _ _ => daemon_keeps _) rfl

end Ipvshttpd.Libipvs
