import Ipvshttpd.LibipvsCommands
import Ipvshttpd.Proofs.NlCallsProofs

/-!
# Proofs: the commands of libipvs

One specification for each function: what a request leaves allocated, what it has sent and which
variables it has changed. The callbacks of a request are specified by an invariant that relates the
messages they have accepted and the blocks of the heap to the object of the caller.
-/

namespace Ipvshttpd.Libipvs

open CLib Netlink Resumption Lib

variable {σ : Type} {nl : Libnl} {exn : NlHeap → Fault → Prop} {q : NlHeap} {v : Statics}

/-! ## What a call leaves alone -/

/-- The messages, the sockets and what has been sent and received. -/
structure NlHeap.SameNet (q q' : NlHeap) : Prop where
  msgs : q'.msgs = q.msgs
  socks : q'.socks = q.socks
  fds : q'.fds = q.fds
  content : q'.content = q.content
  sent : q'.sent = q.sent
  answered : q'.answered = q.answered
  received : q'.received = q.received
  heard : q'.heard = q.heard

/-- No block has been allocated, released or lost. -/
structure NlHeap.SameBlocks (q q' : NlHeap) : Prop where
  blocks : q'.blocks = q.blocks
  orphans : q'.orphans = q.orphans

/-- The transport and the function that the next error is put down to. -/
structure Statics.SameWay (v v' : Statics) : Prop where
  tryNl : v'.tryNl = v.tryNl
  sockfd : v'.sockfd = v.sockfd
  ipvsFunc : v'.ipvsFunc = v.ipvsFunc

theorem NlHeap.SameNet.refl (q : NlHeap) : q.SameNet q := ⟨rfl, rfl, rfl, rfl, rfl, rfl, rfl, rfl⟩

theorem NlHeap.SameNet.trans {q q' q'' : NlHeap} (h : q.SameNet q') (h' : q'.SameNet q'') :
    q.SameNet q'' :=
  ⟨h'.msgs.trans h.msgs, h'.socks.trans h.socks, h'.fds.trans h.fds, h'.content.trans h.content,
    h'.sent.trans h.sent, h'.answered.trans h.answered, h'.received.trans h.received,
    h'.heard.trans h.heard⟩

theorem Statics.SameWay.refl (v : Statics) : v.SameWay v := ⟨rfl, rfl, rfl⟩

theorem Statics.SameWay.trans {v v' v'' : Statics} (h : v.SameWay v') (h' : v'.SameWay v'') :
    v.SameWay v'' :=
  ⟨h'.tryNl.trans h.tryNl, h'.sockfd.trans h.sockfd, h'.ipvsFunc.trans h.ipvsFunc⟩

/-! ## Sending -/

/-- An invariant between the messages that a callback has accepted, the blocks, the orphans and the
    object of the callback. After an error the messages are `none`. -/
abbrev ObjectInv (σ : Type) := Option (List Bytes) → List Nat → List Nat → σ → Prop

/-- The callback keeps the invariant at every message that has been received, and leaves messages,
    sockets and transport alone. -/
def Callback.Keeps (nl : Libnl) (exn : NlHeap → Fault → Prop) (I : ObjectInv σ)
    (func : Callback σ) : Prop :=
  ∀ ms m arg q v, m ∈ q.received → I (some ms) q.blocks q.orphans arg →
    Stateful.wp (nlRules nl) (func m arg) (fun q' v' r =>
      q.SameNet q' ∧ v.SameWay v' ∧
        I (if r.1 < 0 then none else some (ms ++ [m])) q'.blocks q'.orphans r.2) exn q v

/-- The callback returns 0 whatever the message is. -/
def Callback.Accepts (func : Callback σ) : Prop := ∀ m arg, ∃ arg', func m arg = pure (0, arg')

theorem recvmsgs_accepts {func : Callback σ} (h : func.Accepts) (ms : List Bytes) (code : Int)
    (arg : σ) : ∃ arg', recvmsgs func ms code arg = pure (code, arg') := by
  induction ms generalizing arg with
  | nil => exact ⟨arg, rfl⟩
  | cons m ms ih =>
    obtain ⟨arg', harg'⟩ := h m arg
    obtain ⟨arg'', hrest⟩ := ih arg'
    refine ⟨arg'', ?_⟩
    rw [recvmsgs, harg']
    exact hrest

theorem recvmsgs_keeps {I : ObjectInv σ} {func : Callback σ} (hfunc : func.Keeps nl exn I)
    (ms : List Bytes) (code : Int) {before : List Bytes} {arg : σ}
    (hI : I (some before) q.blocks q.orphans arg) (hms : ∀ m ∈ ms, m ∈ q.received) :
    Stateful.wp (nlRules nl) (recvmsgs func ms code arg) (fun q' v' r =>
      q.SameNet q' ∧ v.SameWay v' ∧
        ((r.1 < 0 ∧ I none q'.blocks q'.orphans r.2) ∨
          (r.1 = code ∧ I (some (before ++ ms)) q'.blocks q'.orphans r.2))) exn q v := by
  induction ms generalizing before arg q v with
  | nil => exact ⟨.refl q, .refl v, Or.inr ⟨rfl, by rw [List.append_nil]; exact hI⟩⟩
  | cons m ms ih =>
    rw [recvmsgs, Stateful.wp_bind]
    refine Stateful.wp_mono ?_ (fun _ _ h => h)
      (hfunc before m arg q v (hms m List.mem_cons_self) hI)
    rintro q' v' r ⟨hnet, hway, hI'⟩
    refine Stateful.wp_ite _ _ _ _ (fun hneg => ?_) fun hneg => ?_
    · rw [if_pos hneg] at hI'
      exact ⟨hnet, hway, Or.inl ⟨hneg, hI'⟩⟩
    · rw [if_neg hneg] at hI'
      have hms' : ∀ m' ∈ ms, m' ∈ q'.received := by
        intro m' hm'
        rw [hnet.received]
        exact hms m' (List.mem_cons_of_mem _ hm')
      refine Stateful.wp_mono ?_ (fun _ _ h => h) (ih hI' hms')
      rintro q'' v'' r' ⟨hnet', hway', hI''⟩
      rw [List.append_assoc, List.singleton_append] at hI''
      exact ⟨hnet.trans hnet', hway.trans hway', hI''⟩

/-- The result is that of libnl, unless the callback has returned an error. -/
theorem recvmsgs_wp {I : ObjectInv σ} {func : Callback σ} (hfunc : func.Keeps nl exn I)
    (ms : List Bytes) (code : Int) {before : List Bytes} {arg : σ}
    (hI : I (some before) q.blocks q.orphans arg) (hms : ∀ m ∈ ms, m ∈ q.received) :
    Stateful.wp (nlRules nl) (recvmsgs func ms code arg) (fun q' v' r =>
      q.SameNet q' ∧ v.SameWay v' ∧ (func.Accepts → r.1 = code) ∧
        ((r.1 < 0 ∧ I none q'.blocks q'.orphans r.2) ∨
          (r.1 = code ∧ I (some (before ++ ms)) q'.blocks q'.orphans r.2))) exn q v := by
  have hkeeps := recvmsgs_keeps (v := v) hfunc ms code hI hms
  by_cases haccepts : func.Accepts
  · obtain ⟨arg', heq⟩ := recvmsgs_accepts haccepts ms code arg
    rw [heq] at hkeeps ⊢
    exact ⟨hkeeps.1, hkeeps.2.1, fun _ => rfl, hkeeps.2.2⟩
  · refine Stateful.wp_mono ?_ (fun _ _ h => h) hkeeps
    rintro q' v' r ⟨hnet, hway, hI'⟩
    exact ⟨hnet, hway, fun h => absurd h haccepts, hI'⟩

/-- What a request over netlink leaves: the message and the socket are released, and the command has
    been sent and confirmed if the request has succeeded. If it has failed, the command has not been
    confirmed, unless the callback may have rejected the answer (`rejects`). -/
structure NlHeap.Done (q : NlHeap) (cmd : List Sent) (rejects : Prop) (r : Int) (q' : NlHeap) :
    Prop where
  msgs : q'.msgs = q.msgs
  socks : q'.socks = q.socks
  fds : q'.fds = q.fds
  result : r = 0 ∨ r = -1
  success : r = 0 → q'.sent = q.sent ++ cmd ∧ q'.answered = q.answered ++ cmd.map (·, true)
  failure : r ≠ 0 → (q'.sent = q.sent ∨ q'.sent = q.sent ++ cmd) ∧
    (q'.answered = q.answered ∨ ∃ confirmed, (confirmed = true → rejects) ∧
      q'.answered = q.answered ++ cmd.map (·, confirmed))

theorem NlHeap.Done.of_failure {q q' : NlHeap} {cmd : List Sent} {rejects : Prop}
    (hmsgs : q'.msgs = q.msgs) (hsocks : q'.socks = q.socks) (hfds : q'.fds = q.fds)
    (hsent : q'.sent = q.sent ∨ q'.sent = q.sent ++ cmd)
    (hanswered : q'.answered = q.answered ∨ ∃ confirmed, (confirmed = true → rejects) ∧
      q'.answered = q.answered ++ cmd.map (·, confirmed)) :
    q.Done cmd rejects (-1) q' :=
  ⟨hmsgs, hsocks, hfds, Or.inr rfl, fun h => absurd h (by decide), fun _ => ⟨hsent, hanswered⟩⟩

theorem NlHeap.Done.of_success {q q' : NlHeap} {cmd : List Sent} {rejects : Prop}
    (hmsgs : q'.msgs = q.msgs) (hsocks : q'.socks = q.socks) (hfds : q'.fds = q.fds)
    (hsent : q'.sent = q.sent ++ cmd)
    (hanswered : q'.answered = q.answered ++ cmd.map (·, true)) : q.Done cmd rejects 0 q' :=
  ⟨hmsgs, hsocks, hfds, Or.inl rfl, fun _ => ⟨hsent, hanswered⟩, fun h => absurd rfl h⟩

theorem NlHeap.Done.mono {q q' : NlHeap} {cmd : List Sent} {rejects rejects' : Prop} {r : Int}
    (himp : rejects → rejects') (h : q.Done cmd rejects r q') : q.Done cmd rejects' r q' :=
  ⟨h.msgs, h.socks, h.fds, h.result, h.success, fun hr =>
    ⟨(h.failure hr).1, (h.failure hr).2.imp_right fun hanswered =>
      hanswered.imp fun _ hconfirmed => ⟨himp ∘ hconfirmed.1, hconfirmed.2⟩⟩⟩

/-- The message that `ipvs_nl_send_message` gets: the last one allocated, complete. -/
def NlHeap.Pending (q : NlHeap) (msg : Option Nat) : Prop :=
  ∀ m ∈ msg, m ∈ q.msgs ∧ (q.content m).nest = none

/-- What the message is as a command. -/
def NlHeap.cmdOf (q : NlHeap) (msg : Option Nat) : List Sent :=
  (msg.map fun m => Sent.netlink (q.content m)).toList

/-- The messages `ms` have come as the answer to the command. -/
structure NlHeap.Hears (q : NlHeap) (cmd : List Sent) (ms : List Bytes) (q' : NlHeap) : Prop where
  received : q'.received = q.received ++ ms
  heard : q'.heard = q.heard ++ cmd.map fun s => (some s, ms)

/-- What `ipvs_nl_send_message` leaves. -/
structure SendPost (q : NlHeap) (v : Statics) (msg : Option Nat) (rejects : Prop) (I : ObjectInv σ)
    (q' : NlHeap) (v' : Statics) (r : Int × σ) : Prop where
  done : (q.freeMsg msg).Done (q.cmdOf msg) rejects r.1 q'
  way : v.SameWay v'
  object : I none q'.blocks q'.orphans r.2
  received : r.1 = 0 → ∃ ms, q.Hears (q.cmdOf msg) ms q' ∧ I (some ms) q'.blocks q'.orphans r.2

/-- Every failure after the socket has been allocated releases the socket and the message. -/
theorem failGenl_wp {rejects : Prop} {I : ObjectInv σ} {q' : NlHeap} {v' : Statics}
    {msg : Option Nat} {sock : Nat} {arg : σ} (err : Int) (hmsg : ∀ m ∈ msg, m ∈ q.msgs)
    (hmsgs : q'.msgs = q.msgs) (hsocks : q'.socks = sock :: q.socks) (hfds : q'.fds = q.fds)
    (hsent : q'.sent = q.sent ∨ q'.sent = q.sent ++ q.cmdOf msg)
    (hanswered : q'.answered = q.answered ∨ ∃ confirmed, (confirmed = true → rejects) ∧
      q'.answered = q.answered ++ (q.cmdOf msg).map (·, confirmed))
    (hway : v.SameWay v') (hI : I none q'.blocks q'.orphans arg) :
    Stateful.wp (nlRules nl) (failGenl sock msg err arg) (SendPost q v msg rejects I) exn q' v' := by
  simp only [failGenl, Stateful.wp_bind, wp_nlSocketFree, wp_nlmsgFree, wp_setErrno,
    Stateful.wp_pure]
  have hsock : sock ∈ q'.socks := by rw [hsocks]; exact List.mem_cons_self
  have hmsg' : ∀ m ∈ msg, m ∈ (q'.freeSock sock).msgs := fun m hm => by
    show m ∈ q'.msgs
    rw [hmsgs]
    exact hmsg m hm
  refine ⟨hsock, hmsg', .of_failure ?_ ?_ ?_ ?_ ?_, hway.trans ⟨rfl, rfl, rfl⟩, ?_,
    fun h => absurd h (by decide : ¬ (-1 : Int) = 0)⟩
  · exact NlHeap.freeMsg_congr (q'.freeSock sock) hmsgs msg
  · have hfree : (q'.freeSock sock).socks = q.socks := by
      show q'.socks.erase sock = q.socks
      rw [hsocks, List.erase_cons_head]
    simpa using hfree
  · simpa [NlHeap.freeSock] using hfds
  · simpa [NlHeap.freeSock] using hsent
  · simpa [NlHeap.freeSock] using hanswered
  · simpa [NlHeap.freeSock] using hI

/-- Sending releases the message and the socket on every way out, and keeps what the callback
    keeps. -/
theorem ipvsNlSendMessage_wp {I : ObjectInv σ} {func : Callback σ} (hfunc : func.Keeps nl exn I)
    (hweak : ∀ ms b o arg, I (some ms) b o arg → I none b o arg) {msg : Option Nat}
    (hmsg : q.Pending msg) {arg : σ} (hI : I (some []) q.blocks q.orphans arg) :
    Stateful.wp (nlRules nl) (ipvsNlSendMessage msg func arg) (SendPost q v msg (¬ func.Accepts) I)
      exn q v := by
  have hmem : ∀ m ∈ msg, m ∈ q.msgs := fun m hm => (hmsg m hm).1
  have hnone : I none q.blocks q.orphans arg := hweak _ _ _ _ hI
  simp only [ipvsNlSendMessage, Stateful.wp_bind, wp_nlSocketAlloc]
  constructor
  case right =>
    intro err
    simp only [wp_nlmsgFree, Stateful.wp_pure]
    refine ⟨hmem, .of_failure rfl rfl rfl (Or.inl rfl) (Or.inl ?_), ⟨rfl, rfl, rfl⟩, ?_,
      fun h => absurd h (by decide : ¬ (-1 : Int) = 0)⟩
    · rfl
    · simpa using hnone
  case left =>
    intro sock
    have hsock : sock ∈ (q.allocSock sock).socks := List.mem_cons_self
    have hfail : ∀ v' : Statics, v.SameWay v' → Stateful.wp (nlRules nl)
        (failGenl sock msg einval arg) (SendPost q v msg (¬ func.Accepts) I) exn
        (q.allocSock sock) v' :=
      fun v' hway => failGenl_wp einval hmem rfl rfl rfl (Or.inl rfl) (Or.inl rfl) hway hnone
    simp only [wp_genlConnect]
    refine ⟨hsock, fun connected => Stateful.wp_ite _ _ _ _ (fun _ => hfail v (.refl v)) fun _ => ?_⟩
    simp only [Stateful.wp_bind, wp_genlCtrlResolve, Stateful.wp_modify]
    refine ⟨hsock, fun family => ?_⟩
    generalize hv : ({ v with family := family } : Statics) = v₁
    have hway : v.SameWay v₁ := by subst hv; exact ⟨rfl, rfl, rfl⟩
    refine Stateful.wp_ite _ _ _ _ (fun _ => hfail v₁ hway) fun _ => ?_
    cases msg with
    | none =>
      simp only [Stateful.wp_bind, wp_nlSocketFree, Stateful.wp_pure]
      have hsocks : (sock :: q.socks).erase sock = q.socks := List.erase_cons_head ..
      have hnil : ∀ {β : Type} (xs : List β), xs = xs ++ [] := fun xs => (List.append_nil xs).symm
      exact ⟨hsock, .of_success rfl hsocks rfl (hnil _) (hnil _), hway, hnone,
        fun _ => ⟨[], ⟨hnil _, hnil _⟩, hI⟩⟩
    | some m =>
      obtain ⟨hm, hnest⟩ := hmsg m rfl
      simp only [Stateful.wp_bind, wp_nlSocketModifyCb]
      refine ⟨hsock, fun modified => Stateful.wp_ite _ _ _ _ (fun _ => hfail v₁ hway) fun _ => ?_⟩
      simp only [Stateful.wp_bind, wp_nlSendAutoComplete]
      refine ⟨⟨hsock, hm, hnest⟩, fun sent => ?_⟩
      by_cases hneg : sent < 0
      · rw [if_pos hneg, if_pos hneg]
        exact hfail v₁ hway
      · rw [if_neg hneg, if_neg hneg]
        simp only [Stateful.wp_bind, wp_nlRecvmsgsDefault]
        refine ⟨hsock, fun received => ?_⟩
        refine Stateful.wp_mono ?_ (fun _ _ h => h) (recvmsgs_wp hfunc received.1 received.2 hI
          fun _ hm => List.mem_append_right _ hm)
        rintro q' v' r ⟨hnet, hway', haccepts, hI'⟩
        have hsocks : q'.socks = sock :: q.socks := hnet.socks
        have hsent : q'.sent = q.sent ++ q.cmdOf (some m) := hnet.sent
        have hlast : (q.sent ++ q.cmdOf (some m)).getLast?.toList = q.cmdOf (some m) := by
          simp [NlHeap.cmdOf]
        have hanswered : q'.answered = q.answered ++
            (q.cmdOf (some m)).map (·, decide (0 ≤ received.2)) := by
          rw [← hlast]
          exact hnet.answered
        have hheard : ¬ received.2 < 0 →
            q'.heard = q.heard ++ (q.cmdOf (some m)).map fun s => (some s, received.1) := by
          intro hcode
          refine hnet.heard.trans ?_
          simp [NlHeap.receive, NlHeap.send, NlHeap.allocSock, NlHeap.cmdOf, hcode]
        have hI'' : I none q'.blocks q'.orphans r.2 := by
          rcases hI' with ⟨-, hI'⟩ | ⟨-, hI'⟩
          · exact hI'
          · exact hweak _ _ _ _ hI'
        refine Stateful.wp_ite _ _ _ _ (fun hfailed => ?_) fun hpos => ?_
        · refine failGenl_wp _ hmem hnet.msgs hsocks hnet.fds (Or.inr hsent)
            (Or.inr ⟨_, fun hcode h => ?_, hanswered⟩) (hway.trans hway') hI''
          have hcode' := of_decide_eq_true hcode
          have := haccepts h
          omega
        · simp only [Stateful.wp_bind, wp_nlmsgFree, wp_nlSocketFree, Stateful.wp_pure]
          have hm' : m ∈ q'.msgs := by rw [hnet.msgs]; exact hm
          have hmem' : ∀ i ∈ some m, i ∈ q'.msgs := fun i hi => by cases hi; exact hm'
          have hsock' : sock ∈ (q'.freeMsg (some m)).socks := by
            show sock ∈ q'.socks
            rw [hsocks]
            exact List.mem_cons_self
          have hcode : ¬ received.2 < 0 := by
            rcases hI' with ⟨hneg', -⟩ | ⟨heq, -⟩ <;> omega
          rw [decide_eq_true (not_lt.1 hcode)] at hanswered
          refine ⟨hmem', hsock', .of_success ?_ ?_ ?_ hsent hanswered, hway.trans hway', hI'',
            fun _ => ?_⟩
          · exact NlHeap.freeMsg_congr _ hnet.msgs (some m)
          · show q'.socks.erase sock = q.socks
            rw [hsocks, List.erase_cons_head]
          · rw [NlHeap.freeMsg_fds]
            exact hnet.fds
          · rcases hI' with ⟨hneg', -⟩ | ⟨-, hI'⟩
            · omega
            · exact ⟨received.1, ⟨hnet.received, hheard hcode⟩, hI'⟩

/-! ## Filling a message -/

@[simp] theorem edit_content (msg : Nat) (f : NlMsg → NlMsg) :
    (q.edit msg f).content msg = f (q.content msg) := Function.update_self ..

theorem edit_edit (msg : Nat) (f g : NlMsg → NlMsg) :
    (q.edit msg f).edit msg g = q.edit msg fun m => g (f m) := by
  simp [NlHeap.edit]

/-- The message after the attributes have been put. -/
def NlMsg.puts (m : NlMsg) (attrs : List Attr) : NlMsg := attrs.foldl NlMsg.put m

theorem puts_of_nest_none {m : NlMsg} (h : m.nest = none) (attrs : List Attr) :
    m.puts attrs = { m with attrs := m.attrs ++ attrs } := by
  induction attrs generalizing m with
  | nil => simp [NlMsg.puts]
  | cons a attrs ih =>
    have hput : m.put a = { m with attrs := m.attrs ++ [a] } := by simp [NlMsg.put, h]
    have hrest := ih (m := m.put a) (by rw [hput]; exact h)
    show (m.put a).puts attrs = _
    rw [hrest, hput]
    simp

theorem puts_of_nest_some {m : NlMsg} {type : Nat} {inner : List Attr}
    (h : m.nest = some (type, inner)) (attrs : List Attr) :
    m.puts attrs = { m with nest := some (type, inner ++ attrs) } := by
  induction attrs generalizing m inner with
  | nil =>
    rw [List.append_nil, ← h]
    rfl
  | cons a attrs ih =>
    have hput : m.put a = { m with nest := some (type, inner ++ [a]) } := by simp [NlMsg.put, h]
    have hrest := @ih (m.put a) (inner ++ [a]) (by rw [hput])
    show (m.put a).puts attrs = _
    rw [hrest, hput]
    simp

/-- The function changes the contents of a message to `m` at most, and to `full` if it succeeds. -/
structure Filled (q : NlHeap) (v : Statics) (msg : Nat) (full : NlMsg) (q' : NlHeap)
    (v' : Statics) (r : Int) : Prop where
  edited : ∃ m, q' = q.edit msg (fun _ => m) ∧ (r = 0 → m = full)
  way : v.SameWay v'

theorem edit_self (q : NlHeap) (msg : Nat) : q = q.edit msg fun _ => q.content msg := by
  simp [NlHeap.edit]

theorem Filled.failed {q' : NlHeap} {v' : Statics} {msg : Nat} {full : NlMsg} (m : NlMsg)
    (hq : q' = q.edit msg fun _ => m) (hway : v.SameWay v') : Filled q v msg full q' v' (-1) :=
  ⟨⟨m, hq, fun h => absurd h (by decide)⟩, hway⟩

theorem nlaPuts_wp {msg : Nat} (hmsg : msg ∈ q.msgs) (attrs : List Attr) :
    Stateful.wp (nlRules nl) (nlaPuts msg attrs) (Filled q v msg ((q.content msg).puts attrs))
      exn q v := by
  induction attrs generalizing q v with
  | nil => exact ⟨⟨q.content msg, edit_self q msg, fun _ => rfl⟩, .refl v⟩
  | cons a attrs ih =>
    simp only [nlaPuts, Stateful.wp_bind, wp_nlaPut, Stateful.wp_pure]
    refine ⟨hmsg, ?_, fun err => .failed _ (edit_self q msg) ⟨rfl, rfl, rfl⟩⟩
    refine Stateful.wp_mono ?_ (fun _ _ h => h) (ih (q := q.edit msg (·.put a)) hmsg)
    rintro q' v' r ⟨⟨m, hq, hm⟩, hway⟩
    refine ⟨⟨m, by rw [hq, edit_edit], fun hr => ?_⟩, hway⟩
    rw [hm hr, edit_content]
    rfl

/-- The function `fill` appends `attrs` to a message that has no open nested attribute. -/
def Fills (nl : Libnl) (exn : NlHeap → Fault → Prop) (fill : Nat → Lib Int) (attrs : List Attr) :
    Prop :=
  ∀ msg q v, msg ∈ q.msgs → (q.content msg).nest = none →
    Stateful.wp (nlRules nl) (fill msg)
      (Filled q v msg { q.content msg with attrs := (q.content msg).attrs ++ attrs }) exn q v

theorem noFill_fills : Fills nl exn noFill [] := by
  intro msg q v hmsg hnest
  refine ⟨⟨q.content msg, edit_self q msg, fun _ => ?_⟩, .refl v⟩
  rw [List.append_nil]

theorem nlaPuts_fills (attrs : List Attr) : Fills nl exn (nlaPuts · attrs) attrs := by
  intro msg q v hmsg hnest
  rw [← puts_of_nest_none hnest]
  exact nlaPuts_wp hmsg attrs

theorem nlaNest_fills (type : Nat) (attrs : List Attr) :
    Fills nl exn (nlaNest · type attrs) [⟨type, nl.stream attrs⟩] := by
  intro msg q v hmsg hnest
  simp only [nlaNest, Stateful.wp_bind, wp_nlaNestStart]
  refine ⟨⟨hmsg, hnest⟩, ?_, fun err => ?_⟩
  · refine Stateful.wp_mono ?_ (fun _ _ h => h)
      (nlaPuts_wp (q := q.edit msg (·.nestStart type)) hmsg attrs)
    rintro q' v' r ⟨⟨m, hq, hm⟩, hway⟩
    rw [edit_edit] at hq
    refine Stateful.wp_ite _ _ _ _ (fun hr => ?_) fun hr => ?_
    · exact .failed m hq hway
    · have hfull := hm (not_not.1 hr)
      rw [edit_content, puts_of_nest_some rfl] at hfull
      have hcontent : q'.content msg = m := by rw [hq, edit_content]
      have hmsg' : msg ∈ q'.msgs := by rw [hq]; exact hmsg
      simp only [Stateful.wp_bind, wp_nlaNestEnd, Stateful.wp_pure]
      refine ⟨⟨hmsg', ?_⟩, ⟨m.nestEnd nl, ?_, fun _ => ?_⟩, hway⟩
      · rw [hcontent, hfull]
        simp
      · rw [hq, edit_edit]
      · rw [hfull]
        simp [NlMsg.nestEnd, NlMsg.nestStart, hnest]
  · exact .failed _ (edit_self q msg) ⟨rfl, rfl, rfl⟩

/-- Two fillings, one after the other. -/
theorem Fills.seq {fill fill' : Nat → Lib Int} {attrs attrs' : List Attr}
    (h : Fills nl exn fill attrs) (h' : Fills nl exn fill' attrs') :
    Fills nl exn (fun msg => do
      let filled ← fill msg
      if filled ≠ 0 then pure (-1) else fill' msg) (attrs ++ attrs') := by
  intro msg q v hmsg hnest
  simp only [Stateful.wp_bind]
  refine Stateful.wp_mono ?_ (fun _ _ h => h) (h msg q v hmsg hnest)
  rintro q' v' r ⟨⟨m, hq, hm⟩, hway⟩
  refine Stateful.wp_ite _ _ _ _ (fun _ => ?_) fun hr => ?_
  · exact .failed m hq hway
  · have hfull := hm (not_not.1 hr)
    have hcontent : q'.content msg = m := by rw [hq, edit_content]
    have hmsg' : msg ∈ q'.msgs := by rw [hq]; exact hmsg
    have hnest' : (q'.content msg).nest = none := by rw [hcontent, hfull]; exact hnest
    refine Stateful.wp_mono ?_ (fun _ _ h => h) (h' msg q' v' hmsg' hnest')
    rintro q'' v'' r' ⟨⟨m', hq', hm'⟩, hway'⟩
    refine ⟨⟨m', by rw [hq', hq, edit_edit], fun hr' => ?_⟩, hway.trans hway'⟩
    rw [hm' hr', hcontent, hfull]
    simp

theorem fillDest_fills (svc : ServiceUser) (dest : Dest) :
    Fills nl exn (fillDest svc dest)
      [⟨ipvsCmdAttrService, nl.stream (serviceAttrs svc)⟩,
        ⟨ipvsCmdAttrDest, nl.stream (destAttrs dest)⟩] :=
  (nlaNest_fills ipvsCmdAttrService (serviceAttrs svc)).seq
    (nlaNest_fills ipvsCmdAttrDest (destAttrs dest))

/-! ## Requests -/

/-- The message of a request, complete. -/
def requestMsg (v : Statics) (cmd flags : Nat) (attrs : List Attr) : NlMsg :=
  ⟨v.family, flags, cmd, attrs, none⟩

/-- What a request over netlink leaves. -/
structure RequestPost (q : NlHeap) (v : Statics) (cmd : List Sent) (rejects : Prop)
    (I : ObjectInv σ) (q' : NlHeap) (v' : Statics) (r : Int × σ) : Prop where
  done : q.Done cmd rejects r.1 q'
  way : v.SameWay v'
  object : I none q'.blocks q'.orphans r.2
  received : r.1 = 0 → ∃ ms, q.Hears cmd ms q' ∧ I (some ms) q'.blocks q'.orphans r.2

theorem nlRequest_wp {I : ObjectInv σ} {func : Callback σ} (hfunc : func.Keeps nl exn I)
    (hweak : ∀ ms b o arg, I (some ms) b o arg → I none b o arg) {fill : Nat → Lib Int}
    {attrs : List Attr} (hfill : Fills nl exn fill attrs) (cmd flags : Nat) (arg : σ)
    (hI : I (some []) q.blocks q.orphans arg) :
    Stateful.wp (nlRules nl) (nlRequest cmd flags fill func arg)
      (RequestPost q v [.netlink (requestMsg v cmd flags attrs)] (¬ func.Accepts) I) exn q v := by
  simp only [nlRequest, ipvsNlMessage, Stateful.wp_bind, wp_nlmsgAlloc, Stateful.wp_pure,
    Stateful.wp_get, wp_genlmsgPut]
  refine ⟨fun msg => ⟨List.mem_cons_self, ?_⟩, fun err => ?_⟩
  · generalize hq₁ : (q.allocMsg msg).edit msg (fun m : NlMsg =>
      { m with family := v.family, flags := flags, cmd := cmd }) = q₁
    have hmsgs : q₁.msgs = msg :: q.msgs := by rw [← hq₁]; rfl
    have hmem : msg ∈ q₁.msgs := by rw [hmsgs]; exact List.mem_cons_self
    have hcontent : q₁.content msg = requestMsg v cmd flags [] := by
      rw [← hq₁, edit_content]
      simp [NlHeap.allocMsg, requestMsg, NlMsg.blank]
    refine Stateful.wp_mono ?_ (fun _ _ h => h) (hfill msg q₁ v hmem (by rw [hcontent]; rfl))
    rintro q₂ v₂ r ⟨⟨m, hq₂, hm⟩, hway⟩
    have hmsgs₂ : q₂.msgs = msg :: q.msgs := by rw [hq₂]; exact hmsgs
    have hmem₂ : msg ∈ q₂.msgs := by rw [hmsgs₂]; exact List.mem_cons_self
    have herase : (q₂.freeMsg (some msg)).msgs = q.msgs := by
      rw [NlHeap.freeMsg_some, hmsgs₂, List.erase_cons_head]
    have hsocks : q₂.socks = q.socks := by rw [hq₂, ← hq₁]; rfl
    have hfds : q₂.fds = q.fds := by rw [hq₂, ← hq₁]; rfl
    have hsent : q₂.sent = q.sent := by rw [hq₂, ← hq₁]; rfl
    have hanswered : q₂.answered = q.answered := by rw [hq₂, ← hq₁]; rfl
    have hreceived : q₂.received = q.received := by rw [hq₂, ← hq₁]; rfl
    have hheard : q₂.heard = q.heard := by rw [hq₂, ← hq₁]; rfl
    have hI₂ : I (some []) q₂.blocks q₂.orphans arg := by rw [hq₂, ← hq₁]; exact hI
    refine Stateful.wp_ite _ _ _ _ (fun _ => ?_) fun hr => ?_
    · simp only [Stateful.wp_bind, wp_nlmsgFree, Stateful.wp_pure]
      exact ⟨fun i hi => by cases hi; exact hmem₂,
        .of_failure herase hsocks hfds (Or.inl hsent) (Or.inl hanswered), hway, hweak _ _ _ _ hI₂,
        fun h => absurd h (by decide : ¬ (-1 : Int) = 0)⟩
    · have hfull : q₂.content msg = requestMsg v cmd flags attrs := by
        rw [hq₂, edit_content, hm (not_not.1 hr), hcontent]
        simp [requestMsg]
      have hpending : q₂.Pending (some msg) := by
        intro i hi
        cases hi
        exact ⟨hmem₂, by rw [hfull]; rfl⟩
      refine Stateful.wp_mono ?_ (fun _ _ h => h)
        (ipvsNlSendMessage_wp hfunc hweak hpending hI₂)
      rintro q' v' r ⟨hdone, hway', hI', hI''⟩
      have hcmd : q₂.cmdOf (some msg) = [.netlink (requestMsg v cmd flags attrs)] := by
        rw [← hfull]
        rfl
      rw [hcmd] at hdone hI''
      refine ⟨⟨hdone.msgs.trans herase, hdone.socks.trans hsocks, hdone.fds.trans hfds,
        hdone.result, fun h => ?_, fun h => ?_⟩, hway.trans hway', hI', fun h => ?_⟩
      · rw [← hsent, ← hanswered]
        exact hdone.success h
      · rw [← hsent, ← hanswered]
        exact hdone.failure h
      · obtain ⟨ms, hhears, hms⟩ := hI'' h
        exact ⟨ms, ⟨by rw [← hreceived]; exact hhears.received,
          by rw [← hheard]; exact hhears.heard⟩, hms⟩
  · exact ⟨.of_failure rfl rfl rfl (Or.inl rfl) (Or.inl rfl), ⟨rfl, rfl, rfl⟩, hweak _ _ _ _ hI,
      fun h => absurd h (by decide : ¬ (-1 : Int) = 0)⟩

end Ipvshttpd.Libipvs
