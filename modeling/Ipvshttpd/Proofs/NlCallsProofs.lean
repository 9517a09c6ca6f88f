import Ipvshttpd.NlCalls
import Ipvshttpd.Resumption.Proofs.StatefulProofs

/-!
# Proofs: the calls of libipvs

For each call its weakest precondition under the rules of libnl and of the heap.
-/

namespace Ipvshttpd.Libipvs

open CLib Netlink Resumption Lib

variable {nl : Libnl} {exn : NlHeap → Fault → Prop} {q : NlHeap} {v : Statics}

theorem forall_except {α : Type} {P : Except Int α → Prop} :
    (∀ r, P r) ↔ (∀ a, P (.ok a)) ∧ ∀ err, P (.error err) := by
  constructor
  · intro h
    exact ⟨fun a => h _, fun err => h _⟩
  · rintro ⟨hok, herror⟩ r
    cases r with
    | ok a => exact hok a
    | error err => exact herror err

/-! ## The ghost state -/

namespace NlHeap

variable (q : NlHeap)

@[simp] theorem freeMsg_socks (msg : Option Nat) : (q.freeMsg msg).socks = q.socks := by
  cases msg <;> rfl

@[simp] theorem freeMsg_blocks (msg : Option Nat) : (q.freeMsg msg).blocks = q.blocks := by
  cases msg <;> rfl

@[simp] theorem freeMsg_orphans (msg : Option Nat) : (q.freeMsg msg).orphans = q.orphans := by
  cases msg <;> rfl

@[simp] theorem freeMsg_content (msg : Option Nat) : (q.freeMsg msg).content = q.content := by
  cases msg <;> rfl

@[simp] theorem freeMsg_received (msg : Option Nat) : (q.freeMsg msg).received = q.received := by
  cases msg <;> rfl

@[simp] theorem freeMsg_heard (msg : Option Nat) : (q.freeMsg msg).heard = q.heard := by
  cases msg <;> rfl

@[simp] theorem freeMsg_fds (msg : Option Nat) : (q.freeMsg msg).fds = q.fds := by
  cases msg <;> rfl

@[simp] theorem freeMsg_sent (msg : Option Nat) : (q.freeMsg msg).sent = q.sent := by
  cases msg <;> rfl

@[simp] theorem freeMsg_answered (msg : Option Nat) : (q.freeMsg msg).answered = q.answered := by
  cases msg <;> rfl

@[simp] theorem freeMsg_some (msg : Nat) : (q.freeMsg (some msg)).msgs = q.msgs.erase msg := rfl

theorem freeMsg_congr {q : NlHeap} (q' : NlHeap) (h : q'.msgs = q.msgs) (msg : Option Nat) :
    (q'.freeMsg msg).msgs = (q.freeMsg msg).msgs := by
  cases msg with
  | none => exact h
  | some msg => exact congrArg (List.erase · msg) h

end NlHeap

/-! ## Variables -/

@[simp] theorem wp_setErrno (err : Int) (post : NlHeap → Statics → PUnit → Prop) :
    Stateful.wp (nlRules nl) (setErrno err) post exn q v ↔
      post q { v with errno := err } ⟨⟩ := Iff.rfl

@[simp] theorem wp_setFunc (func : IpvsFunc) (post : NlHeap → Statics → PUnit → Prop) :
    Stateful.wp (nlRules nl) (setFunc func) post exn q v ↔
      post q { v with ipvsFunc := some func } ⟨⟩ := Iff.rfl

@[simp] theorem wp_ofAnswer_ok {α : Type} (a : α) (post : NlHeap → Statics → Option α → Prop) :
    Stateful.wp (nlRules nl) (ofAnswer (.ok a)) post exn q v ↔ post q v (some a) := Iff.rfl

@[simp] theorem wp_ofAnswer_error {α : Type} (err : Int)
    (post : NlHeap → Statics → Option α → Prop) :
    Stateful.wp (nlRules nl) (ofAnswer (.error err)) post exn q v ↔
      post q { v with errno := err } none := Iff.rfl

theorem wp_ofRead {α : Type} {e : Read α} {post : NlHeap → Statics → α → Prop}
    (hok : ∀ a, e = .ok a → post q v a) (herror : ∀ fault, e = .error fault → exn q (.read fault)) :
    Stateful.wp (nlRules nl) (ofRead e) post exn q v := by
  cases e with
  | ok a => exact hok a rfl
  | error fault => exact herror fault rfl

/-! ## Messages -/

@[simp] theorem wp_nlmsgAlloc (post : NlHeap → Statics → Option Nat → Prop) :
    Stateful.wp (nlRules nl) nlmsgAlloc post exn q v ↔
      (∀ msg, post (q.allocMsg msg) v (some msg)) ∧
        ∀ err, post q { v with errno := err } none := by
  simp only [nlmsgAlloc, Stateful.wp_bind, Stateful.wp_call]
  rw [forall_except]
  exact ⟨fun h => h.2, fun h => ⟨trivial, h⟩⟩

@[simp] theorem wp_genlmsgPut (msg : Nat) (family : Int) (flags cmd : Nat)
    (post : NlHeap → Statics → Unit → Prop) :
    Stateful.wp (nlRules nl) (genlmsgPut msg family flags cmd) post exn q v ↔
      msg ∈ q.msgs ∧
        post (q.edit msg fun m => { m with family := family, flags := flags, cmd := cmd }) v () :=
  ⟨fun h => ⟨h.1, h.2 ()⟩, fun h => ⟨h.1, fun _ => h.2⟩⟩

@[simp] theorem wp_nlaPut (msg : Nat) (a : Attr) (post : NlHeap → Statics → Option Unit → Prop) :
    Stateful.wp (nlRules nl) (nlaPut msg a) post exn q v ↔
      msg ∈ q.msgs ∧ post (q.edit msg (·.put a)) v (some ()) ∧
        ∀ err, post q { v with errno := err } none := by
  simp only [nlaPut, Stateful.wp_bind, Stateful.wp_call]
  rw [forall_except]
  exact ⟨fun h => ⟨h.1, h.2.1 (), h.2.2⟩, fun h => ⟨h.1, fun _ => h.2.1, h.2.2⟩⟩

@[simp] theorem wp_nlaNestStart (msg type : Nat)
    (post : NlHeap → Statics → Option Unit → Prop) :
    Stateful.wp (nlRules nl) (nlaNestStart msg type) post exn q v ↔
      (msg ∈ q.msgs ∧ (q.content msg).nest = none) ∧
        post (q.edit msg (·.nestStart type)) v (some ()) ∧
          ∀ err, post q { v with errno := err } none := by
  simp only [nlaNestStart, Stateful.wp_bind, Stateful.wp_call]
  rw [forall_except]
  exact ⟨fun h => ⟨h.1, h.2.1 (), h.2.2⟩, fun h => ⟨h.1, fun _ => h.2.1, h.2.2⟩⟩

@[simp] theorem wp_nlaNestEnd (msg : Nat) (post : NlHeap → Statics → Unit → Prop) :
    Stateful.wp (nlRules nl) (nlaNestEnd msg) post exn q v ↔
      (msg ∈ q.msgs ∧ (q.content msg).nest ≠ none) ∧ post (q.edit msg (·.nestEnd nl)) v () :=
  ⟨fun h => ⟨h.1, h.2 ()⟩, fun h => ⟨h.1, fun _ => h.2⟩⟩

@[simp] theorem wp_nlmsgFree (msg : Option Nat) (post : NlHeap → Statics → Unit → Prop) :
    Stateful.wp (nlRules nl) (nlmsgFree msg) post exn q v ↔
      (∀ i ∈ msg, i ∈ q.msgs) ∧ post (q.freeMsg msg) v () :=
  ⟨fun h => ⟨h.1, h.2 ()⟩, fun h => ⟨h.1, fun _ => h.2⟩⟩

/-! ## Sockets of libnl -/

@[simp] theorem wp_nlSocketAlloc (post : NlHeap → Statics → Option Nat → Prop) :
    Stateful.wp (nlRules nl) nlSocketAlloc post exn q v ↔
      (∀ sock, post (q.allocSock sock) v (some sock)) ∧
        ∀ err, post q { v with errno := err } none := by
  simp only [nlSocketAlloc, Stateful.wp_bind, Stateful.wp_call]
  rw [forall_except]
  exact ⟨fun h => h.2, fun h => ⟨trivial, h⟩⟩

@[simp] theorem wp_genlConnect (sock : Nat) (post : NlHeap → Statics → Int → Prop) :
    Stateful.wp (nlRules nl) (genlConnect sock) post exn q v ↔
      sock ∈ q.socks ∧ ∀ r, post q v r := Iff.rfl

@[simp] theorem wp_genlCtrlResolve (sock : Nat) (post : NlHeap → Statics → Int → Prop) :
    Stateful.wp (nlRules nl) (genlCtrlResolve sock) post exn q v ↔
      sock ∈ q.socks ∧ ∀ r, post q v r := Iff.rfl

@[simp] theorem wp_nlSocketModifyCb (sock : Nat) (post : NlHeap → Statics → Int → Prop) :
    Stateful.wp (nlRules nl) (nlSocketModifyCb sock) post exn q v ↔
      sock ∈ q.socks ∧ ∀ r, post q v r := Iff.rfl

@[simp] theorem wp_nlSendAutoComplete (sock msg : Nat) (post : NlHeap → Statics → Int → Prop) :
    Stateful.wp (nlRules nl) (nlSendAutoComplete sock msg) post exn q v ↔
      (sock ∈ q.socks ∧ msg ∈ q.msgs ∧ (q.content msg).nest = none) ∧
        ∀ r, post (if r < 0 then q else q.send (.netlink (q.content msg))) v r := Iff.rfl

@[simp] theorem wp_nlRecvmsgsDefault (sock : Nat)
    (post : NlHeap → Statics → List Bytes × Int → Prop) :
    Stateful.wp (nlRules nl) (nlRecvmsgsDefault sock) post exn q v ↔
      sock ∈ q.socks ∧ ∀ r, post (q.receive r) v r := Iff.rfl

@[simp] theorem wp_nlSocketFree (sock : Nat) (post : NlHeap → Statics → Unit → Prop) :
    Stateful.wp (nlRules nl) (nlSocketFree sock) post exn q v ↔
      sock ∈ q.socks ∧ post (q.freeSock sock) v () :=
  ⟨fun h => ⟨h.1, h.2 ()⟩, fun h => ⟨h.1, fun _ => h.2⟩⟩

/-! ## The heap -/

@[simp] theorem wp_malloc (post : NlHeap → Statics → Option Nat → Prop) :
    Stateful.wp (nlRules nl) malloc post exn q v ↔
      (∀ block, post (q.allocBlock block) v (some block)) ∧
        ∀ err, post q { v with errno := err } none := by
  simp only [malloc, Stateful.wp_bind, Stateful.wp_call]
  rw [forall_except]
  exact ⟨fun h => h.2, fun h => ⟨trivial, h⟩⟩

@[simp] theorem wp_realloc (block : Nat) (post : NlHeap → Statics → Option Nat → Prop) :
    Stateful.wp (nlRules nl) (realloc block) post exn q v ↔
      block ∈ q.blocks ∧
        (∀ block', post ((q.freeBlock (some block)).allocBlock block') v (some block')) ∧
          ∀ err, post (q.orphan block) { v with errno := err } none := by
  simp only [realloc, Stateful.wp_bind, Stateful.wp_call]
  rw [forall_except]
  exact Iff.rfl

@[simp] theorem wp_access (block : Nat) (post : NlHeap → Statics → Unit → Prop) :
    Stateful.wp (nlRules nl) (access block) post exn q v ↔ block ∈ q.blocks ∧ post q v () :=
  ⟨fun h => ⟨h.1, h.2 ()⟩, fun h => ⟨h.1, fun _ => h.2⟩⟩

@[simp] theorem wp_free (block : Option Nat) (post : NlHeap → Statics → Unit → Prop) :
    Stateful.wp (nlRules nl) (free block) post exn q v ↔
      (∀ i ∈ block, i ∈ q.blocks) ∧ post (q.freeBlock block) v () :=
  ⟨fun h => ⟨h.1, h.2 ()⟩, fun h => ⟨h.1, fun _ => h.2⟩⟩

/-! ## Sockets of the kernel -/

@[simp] theorem wp_socket (post : NlHeap → Statics → Option Nat → Prop) :
    Stateful.wp (nlRules nl) Lib.socket post exn q v ↔
      (∀ fd, post (q.openFd fd) v (some fd)) ∧ ∀ err, post q { v with errno := err } none := by
  simp only [Lib.socket, Stateful.wp_bind, Stateful.wp_call]
  rw [forall_except]
  exact ⟨fun h => h.2, fun h => ⟨trivial, h⟩⟩

@[simp] theorem wp_getsockopt (fd : Option Nat) (opt : GetOpt)
    (post : NlHeap → Statics → Option opt.Data → Prop) :
    Stateful.wp (nlRules nl) (getsockopt fd opt) post exn q v ↔
      (∀ data, post (q.gets opt data) v (some data)) ∧
        ∀ err, post q { v with errno := err } none := by
  simp only [getsockopt, Stateful.wp_bind, Stateful.wp_call]
  rw [forall_except]
  exact ⟨fun h => h.2, fun h => ⟨trivial, h⟩⟩

@[simp] theorem wp_setsockopt (fd : Option Nat) (opt : SetOpt)
    (post : NlHeap → Statics → Int → Prop) :
    Stateful.wp (nlRules nl) (setsockopt fd opt) post exn q v ↔
      post (q.carryOut (.sockopt opt)) v 0 ∧ ∀ err, post q { v with errno := err } (-1) := by
  simp only [setsockopt, Stateful.wp_bind, Stateful.wp_call]
  rw [forall_except]
  exact ⟨fun h => ⟨h.2.1 (), h.2.2⟩, fun h => ⟨trivial, fun _ => h.1, h.2⟩⟩

end Ipvshttpd.Libipvs
