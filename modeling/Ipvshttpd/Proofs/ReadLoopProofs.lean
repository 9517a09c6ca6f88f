import Mathlib.Data.List.Infix
import Ipvshttpd.ReadLoop

/-!
# Proofs: reading a request

As long as less than the declared length has been delivered, the one outstanding read carries the
number of missing bytes (`run_pending`). The callback that completes the body is recognised if it
ends exactly where the body ends; if it brings more, the subtraction wraps around and the handler
goes on reading.
-/

namespace Ipvshttpd

open CLib ConnectionHandler

variable {n : Nat} {cbs before : List ReadCallback} {cb : ReadCallback} {headers : List RequestHeader}

/-! ## Callbacks -/

theorem stream_append (cbs cbs' : List ReadCallback) :
    stream (cbs ++ cbs') = stream cbs ++ stream cbs' := List.flatMap_append

theorem stream_snoc (cbs : List ReadCallback) (cb : ReadCallback) :
    stream (cbs ++ [cb]) = stream cbs ++ cb.range := by
  rw [stream_append]
  simp [stream]

theorem size_toNat (cb : ReadCallback) : cb.size.toNat = cb.range.length := by
  have hfits := cb.fits
  unfold ReadCallback.size
  rw [BitVec.toNat_ofNat]
  omega

theorem run_snoc (h : ConnectionHandler) (cbs : List ReadCallback) (cb : ReadCallback) :
    h.run (cbs ++ [cb]) = (h.run cbs).deliver cb := by
  simp [ConnectionHandler.run]

/-! ## The counter -/

/-- The handler that waits for the rest of a body of length `n`. -/
def pending (n : Nat) (cbs : List ReadCallback) : ConnectionHandler :=
  ⟨stream cbs, [BitVec.ofInt 64 ((n : Int) - (stream cbs).length)], []⟩

/-- The counter after one more callback; the subtraction is modular. -/
theorem counter_snoc (n : Nat) (before : List ReadCallback) (cb : ReadCallback) :
    BitVec.ofInt 64 ((n : Int) - (stream before).length) - cb.size =
      BitVec.ofInt 64 ((n : Int) - (stream (before ++ [cb])).length) := by
  have hsum : (n : Int) - (stream before).length =
      ((n : Int) - (stream (before ++ [cb])).length) + (cb.range.length : Int) := by
    rw [stream_snoc, List.length_append]
    omega
  rw [hsum, BitVec.ofInt_add, BitVec.ofInt_natCast]
  exact BitVec.add_sub_cancel _ _

/-- The counter is zero exactly if the declared length has been delivered exactly: one callback
    brings too little to go once around the 64 bits. -/
theorem counter_eq_zero_iff (hn : n < 2 ^ 31) (cb : ReadCallback)
    (hbefore : before = [] ∨ (stream before).length < n) :
    BitVec.ofInt 64 ((n : Int) - (stream (before ++ [cb])).length) = 0 ↔
      (stream (before ++ [cb])).length = n := by
  have hfits := cb.fits
  have hlen : (stream (before ++ [cb])).length = (stream before).length + cb.range.length := by
    rw [stream_snoc, List.length_append]
  have hbound : (stream before).length ≤ n := by
    rcases hbefore with rfl | hlt
    · simp [stream]
    · omega
  rw [← BitVec.toNat_inj, BitVec.toNat_ofInt]
  constructor
  · intro hzero
    simp only [BitVec.ofNat_eq_ofNat, BitVec.toNat_ofNat] at hzero
    omega
  · intro hexact
    rw [hexact]
    simp

/-- A callback either ends the reading, if the counter becomes zero, or the reading goes on. -/
theorem deliver_pending (hcb : cb.error = false) :
    (pending n before).deliver cb =
      if BitVec.ofInt 64 ((n : Int) - (stream (before ++ [cb])).length) = 0 then
        ⟨stream (before ++ [cb]), [], [stream (before ++ [cb])]⟩
      else pending n (before ++ [cb]) := by
  have hbody : stream before ++ cb.range.take cb.size.toNat = stream (before ++ [cb]) := by
    rw [size_toNat, List.take_length, stream_snoc]
  have hpos : ∀ x : BitVec 64, (0 < x) ↔ ¬ x = 0 := fun x => BitVec.pos_iff_ne_zero x
  simp only [deliver, pending, handlePostRead, hcb, Bool.false_eq_true, if_false, hbody,
    counter_snoc, hpos, ite_not]
  rfl

/-! ## The loop -/

/-- While the body is incomplete, one read is outstanding. -/
theorem run_pending (hn : n < 2 ^ 31) (hdecl : contentLength headers = n)
    (hok : ∀ cb ∈ cbs, cb.error = false) (hlen : cbs = [] ∨ (stream cbs).length < n) :
    (start headers).run cbs = pending n cbs := by
  induction cbs using List.reverseRecOn with
  | nil => simp [ConnectionHandler.run, start, readChunk, new, pending, stream, hdecl]
  | append_singleton before cb ih =>
    have hlt : (stream (before ++ [cb])).length < n := by
      rcases hlen with hnil | hlt
      · simp at hnil
      · exact hlt
    have hbefore : (stream before).length < n := by
      rw [stream_snoc, List.length_append] at hlt
      omega
    rw [run_snoc, ih (fun cb' hcb' => hok cb' (List.mem_append_left _ hcb')) (Or.inr hbefore),
      deliver_pending (hok cb (by simp)), if_neg]
    rw [counter_eq_zero_iff hn cb (Or.inr hbefore)]
    omega

/-- The callback that completes the body invokes the request handler exactly if it ends where the
    body ends. -/
theorem run_complete (hn : n < 2 ^ 31) (hdecl : contentLength headers = n)
    (hok : ∀ cb' ∈ before ++ [cb], cb'.error = false)
    (hbefore : before = [] ∨ (stream before).length < n) :
    (start headers).run (before ++ [cb]) =
      if (stream (before ++ [cb])).length = n then
        ⟨stream (before ++ [cb]), [], [stream (before ++ [cb])]⟩
      else pending n (before ++ [cb]) := by
  rw [run_snoc, run_pending hn hdecl (fun cb' hcb' => hok cb' (List.mem_append_left _ hcb')) hbefore,
    deliver_pending (hok cb (by simp))]
  simp only [counter_eq_zero_iff hn cb hbefore]

/-- Before the body is complete, no request is due. -/
theorem dueRequests_pending (h : cbs = [] ∨ (stream cbs).length < n) : dueRequests n cbs = [] := by
  unfold dueRequests
  rw [if_neg]
  rintro ⟨hne, hle⟩
  rcases h with hnil | hlt
  · exact hne hnil
  · omega

/-- Once the body is complete, more callbacks do not change what is due. -/
theorem dueRequests_snoc (hne : before ≠ []) (hle : n ≤ (stream before).length) (cb : ReadCallback) :
    dueRequests n (before ++ [cb]) = dueRequests n before := by
  have hle' : n ≤ (stream (before ++ [cb])).length := by
    rw [stream_snoc, List.length_append]
    omega
  unfold dueRequests
  rw [if_pos ⟨by simp, hle'⟩, if_pos ⟨hne, hle⟩, stream_snoc, List.take_append_of_le_length hle]

/-- If the stream is cut exactly, what is due has been done and nothing is outstanding after it. -/
theorem run_of_cutExactly (hn : n < 2 ^ 31) (hdecl : contentLength headers = n)
    (hok : ∀ cb ∈ cbs, cb.error = false) (hcut : CutExactly n cbs) :
    ((start headers).run cbs).requests = dueRequests n cbs ∧
      (cbs ≠ [] → n ≤ (stream cbs).length → ((start headers).run cbs).reads = []) := by
  induction cbs using List.reverseRecOn with
  | nil =>
    rw [run_pending hn hdecl hok (Or.inl rfl), dueRequests_pending (Or.inl rfl)]
    exact ⟨rfl, fun hne => absurd rfl hne⟩
  | append_singleton before cb ih =>
    by_cases hbefore : before = [] ∨ (stream before).length < n
    · rw [run_complete hn hdecl hok hbefore]
      by_cases hle : n ≤ (stream (before ++ [cb])).length
      · have hexact := hcut before cb (List.prefix_refl _) hbefore hle
        have hdue : dueRequests n (before ++ [cb]) = [stream (before ++ [cb])] := by
          unfold dueRequests
          rw [if_pos ⟨by simp, hle⟩, ← hexact, List.take_length]
        rw [if_pos hexact, hdue]
        exact ⟨rfl, fun _ _ => rfl⟩
      · have hlt : (stream (before ++ [cb])).length < n := by omega
        rw [if_neg (by omega), dueRequests_pending (Or.inr hlt)]
        exact ⟨rfl, fun _ hle' => absurd hle' hle⟩
    · rw [not_or, Nat.not_lt] at hbefore
      obtain ⟨hne, hle⟩ := hbefore
      obtain ⟨hdone, hreads⟩ := ih (fun cb' hcb' => hok cb' (List.mem_append_left _ hcb'))
        fun b c hpre => hcut b c (hpre.trans (List.prefix_append _ _))
      have hidle : ((start headers).run before).deliver cb = (start headers).run before := by
        unfold deliver
        rw [hreads hne hle]
      rw [run_snoc, hidle, dueRequests_snoc hne hle]
      exact ⟨hdone, fun _ _ => hreads hne hle⟩

/-- The body is reassembled as it should, at every callback, exactly if the stream is cut so that
    a callback ends where the body ends. -/
theorem requests_iff_cutExactly (headers : List RequestHeader) (n : Nat) (hn : n < 2 ^ 31)
    (hdecl : contentLength headers = n) (cbs : List ReadCallback)
    (hok : ∀ cb ∈ cbs, cb.error = false) :
    (∀ before, before <+: cbs → ((start headers).run before).requests = dueRequests n before) ↔
      CutExactly n cbs := by
  constructor
  · intro hall before cb hpre hbefore hle
    have hok' : ∀ cb' ∈ before ++ [cb], cb'.error = false := fun cb' hcb' => hok cb' (hpre.subset hcb')
    have hdue := hall _ hpre
    rw [run_complete hn hdecl hok' hbefore] at hdue
    by_contra hne
    rw [if_neg hne] at hdue
    have hsome : dueRequests n (before ++ [cb]) ≠ [] := by
      unfold dueRequests
      rw [if_pos ⟨by simp, hle⟩]
      simp
    exact hsome hdue.symm
  · intro hcut before hpre
    exact (run_of_cutExactly hn hdecl (fun cb hcb => hok cb (hpre.subset hcb))
      fun b c hbc => hcut b c (hbc.trans hpre)).1

/-- A body of five bytes in two callbacks. -/
theorem requests_iff_cutExactly_sample :
    let headers : List RequestHeader := [⟨lit "Content-Length", lit "5"⟩]
    let cbs : List ReadCallback := [⟨false, lit "he", by decide⟩, ⟨false, lit "llo", by decide⟩]
    (∀ before, before <+: cbs → ((start headers).run before).requests = dueRequests 5 before) ↔
      CutExactly 5 cbs :=
  requests_iff_cutExactly [⟨lit "Content-Length", lit "5"⟩] 5 (by decide) (by decide)
    [⟨false, lit "he", by decide⟩, ⟨false, lit "llo", by decide⟩] (by simp)

/-- A body of five bytes that arrives with the line break after it: the request is lost. -/
theorem trailing_bytes_lose_request :
    let headers : List RequestHeader := [⟨lit "Content-Length", lit "5"⟩]
    let cbs : List ReadCallback := [⟨false, lit "hello\r\n", by decide⟩]
    contentLength headers = 5 ∧ dueRequests 5 cbs = [lit "hello"] ∧
      ((start headers).run cbs).requests = [] := by
  decide

/-! ## The invariant of the loop -/

theorem callbacks_snoc (h : ConnectionHandler) (cbs : List ReadCallback) (cb : ReadCallback) :
    h.callbacks (cbs ++ [cb]) = (h.callbacks cbs).bind (callback · cb) := by
  induction cbs generalizing h with
  | nil => cases hcb : h.callback cb <;> simp [callbacks, hcb]
  | cons c cbs ih => simp only [List.cons_append, callbacks, Option.bind_assoc, ih]

/-- If callbacks answer a read each, `callbacks` is the run of the handler. -/
theorem run_of_callbacks {h h' : ConnectionHandler} (hrun : h.callbacks cbs = some h') :
    h.run cbs = h' := by
  induction cbs using List.reverseRecOn generalizing h' with
  | nil => simpa [callbacks, ConnectionHandler.run] using hrun
  | append_singleton before cb ih =>
    rw [callbacks_snoc, Option.bind_eq_some_iff] at hrun
    obtain ⟨h₁, hbefore, hcb⟩ := hrun
    rw [run_snoc, ih hbefore]
    unfold callback at hcb
    unfold deliver
    cases hreads : h₁.reads with
    | nil => simp [hreads] at hcb
    | cons left reads => simpa [hreads] using hcb

theorem received_snoc (cbs : List ReadCallback) (cb : ReadCallback) :
    received (cbs ++ [cb]) = received cbs ++ (if cb.error then [] else cb.range) := by
  unfold received
  rw [List.filter_append, stream_append]
  cases hcb : cb.error <;> simp [stream, hcb]

/-- What a callback does to a handler with one outstanding read: an error ends the reading; else the
    body grows, and the handler is invoked if nothing is left. -/
theorem callback_cases {h h' : ConnectionHandler} {left : BitVec 64} (hreads : h.reads = [left])
    (hcb : h.callback cb = some h') :
    (cb.error = true ∧ h' = { h with reads := [] }) ∨
    (cb.error = false ∧ left - cb.size = 0 ∧
      h' = ⟨h.mRequestBody ++ cb.range, [], h.requests ++ [h.mRequestBody ++ cb.range]⟩) ∨
    (cb.error = false ∧ left - cb.size ≠ 0 ∧
      h' = ⟨h.mRequestBody ++ cb.range, [left - cb.size], h.requests⟩) := by
  have htake : cb.range.take cb.size.toNat = cb.range := by rw [size_toNat, List.take_length]
  unfold callback at hcb
  simp only [hreads, handlePostRead, htake, Option.some.injEq] at hcb
  cases herr : cb.error with
  | true => exact Or.inl ⟨rfl, by simpa [herr] using hcb.symm⟩
  | false =>
    simp only [herr, Bool.false_eq_true, if_false] at hcb
    by_cases hleft : left - cb.size = 0
    · refine Or.inr (Or.inl ⟨rfl, hleft, ?_⟩)
      rw [hleft, if_neg (by simp)] at hcb
      exact hcb.symm
    · have hpos : 0 < left - cb.size := (BitVec.pos_iff_ne_zero _).2 hleft
      refine Or.inr (Or.inr ⟨rfl, hleft, ?_⟩)
      rw [if_pos hpos] at hcb
      exact hcb.symm

theorem readInvariant_start (n : BitVec 64) : ReadInvariant n [] (new.readChunk n) where
  oneRead := by simp [readChunk, new]
  body := rfl
  counter := by simp [readChunk, new]
  invoked := Or.inl rfl
  atCompletion := by simp [readChunk, new]
  first := by simp
  afterError := by simp
  afterRequest := fun hne => absurd rfl hne

/-- While a read is outstanding, no callback has been an error and none has completed the body. -/
theorem ReadInvariant.open_of_reads {n : BitVec 64} {h : ConnectionHandler} {left : BitVec 64}
    (hinv : ReadInvariant n cbs h) (hreads : h.reads = [left]) :
    h.requests = [] ∧ (∀ cb ∈ cbs, cb.error = false) ∧
      ∀ before cb after, cbs = before ++ cb :: after → ¬ Completes n before cb := by
  have hne : h.reads ≠ [] := by simp [hreads]
  have hrequests : h.requests = [] := by
    by_contra hinvoked
    exact hne (hinv.afterRequest hinvoked)
  refine ⟨hrequests, ?_, ?_⟩
  · intro cb hmem
    by_contra herr
    rw [Bool.not_eq_false] at herr
    exact hne (hinv.afterError ⟨cb, hmem, herr⟩).2
  · intro before cb after hsplit hcomplete
    have hnil := hinv.first before cb after hsplit hcomplete
    rw [hnil] at hsplit
    exact hinv.atCompletion.2 ⟨before, cb, hsplit, hcomplete⟩ hrequests

/-- With one outstanding read, a callback completes the body exactly if it has no error and leaves
    nothing to read. -/
theorem ReadInvariant.completes_iff {n : BitVec 64} {h : ConnectionHandler} {left : BitVec 64}
    (hinv : ReadInvariant n cbs h) (hreads : h.reads = [left]) (cb : ReadCallback) :
    Completes n cbs cb ↔ cb.error = false ∧ left - cb.size = 0 := by
  have hcounter : left + BitVec.ofNat 64 h.mRequestBody.length = n :=
    hinv.counter left (by simp [hreads])
  have hlength : cb.error = false → BitVec.ofNat 64 (received (cbs ++ [cb])).length =
      BitVec.ofNat 64 h.mRequestBody.length + cb.size := by
    intro herr
    rw [received_snoc, ← hinv.body, herr, List.length_append, BitVec.ofNat_add]
    rfl
  unfold Completes
  constructor
  · rintro ⟨herr, hlen⟩
    rw [hlength herr] at hlen
    exact ⟨herr, by bv_omega⟩
  · rintro ⟨herr, hzero⟩
    refine ⟨herr, ?_⟩
    rw [hlength herr]
    bv_omega

/-- The last callback of a sequence is the only one to complete the body, if none before it does. -/
theorem after_eq_nil {n : BitVec 64}
    (hopen : ∀ before cb after, cbs = before ++ cb :: after → ¬ Completes n before cb)
    {after : List ReadCallback} {c : ReadCallback} (hsplit : cbs ++ [cb] = before ++ c :: after)
    (hcomplete : Completes n before c) : after = [] := by
  rcases List.eq_nil_or_concat after with hnil | ⟨after', last, rfl⟩
  · exact hnil
  · have hbefore : cbs = before ++ c :: after' := by
      rw [List.concat_eq_append, ← List.cons_append, ← List.append_assoc] at hsplit
      exact (List.append_inj' hsplit rfl).1
    exact absurd hcomplete (hopen before c after' hbefore)

/-- The callback of the outstanding read preserves the invariant. -/
theorem readInvariant_callback {n : BitVec 64} {h h' : ConnectionHandler}
    (hinv : ReadInvariant n cbs h) (hcb : h.callback cb = some h') :
    ReadInvariant n (cbs ++ [cb]) h' := by
  obtain ⟨left, hreads⟩ : ∃ left, h.reads = [left] := by
    have hone := hinv.oneRead
    rcases hr : h.reads with _ | ⟨left, _ | ⟨_, _⟩⟩
    · simp [callback, hr] at hcb
    · exact ⟨left, rfl⟩
    · rw [hr] at hone
      simp at hone
  obtain ⟨hrequests, hok, hopen⟩ := hinv.open_of_reads hreads
  have hcounter : left + BitVec.ofNat 64 h.mRequestBody.length = n :=
    hinv.counter left (by simp [hreads])
  have hbody : cb.error = false → h.mRequestBody ++ cb.range = received (cbs ++ [cb]) := by
    intro herr
    rw [received_snoc, hinv.body, herr]
    rfl
  have hlast : (∃ before c, cbs ++ [cb] = before ++ [c] ∧ Completes n before c) ↔
      cb.error = false ∧ left - cb.size = 0 := by
    rw [← hinv.completes_iff hreads cb]
    constructor
    · rintro ⟨before, c, hsplit, hcomplete⟩
      obtain ⟨rfl, hc⟩ := List.append_inj' hsplit rfl
      rw [List.singleton_inj.1 hc]
      exact hcomplete
    · intro hcomplete
      exact ⟨cbs, cb, rfl, hcomplete⟩
  have herrors : (∃ c ∈ cbs ++ [cb], c.error = true) → cb.error = true := by
    rintro ⟨c, hmem, herr⟩
    rcases List.mem_append.1 hmem with hold | hnew
    · rw [hok c hold] at herr
      simp at herr
    · rw [List.mem_singleton.1 hnew] at herr
      exact herr
  rcases callback_cases hreads hcb with ⟨herr, rfl⟩ | ⟨herr, hzero, rfl⟩ | ⟨herr, hmore, rfl⟩
  · exact {
      oneRead := by simp
      body := by simp [received_snoc, hinv.body, herr]
      counter := by simp
      invoked := Or.inl hrequests
      atCompletion := by
        rw [hlast]
        simp [hrequests, herr]
      first := fun _ _ _ => after_eq_nil hopen
      afterError := fun _ => ⟨hrequests, rfl⟩
      afterRequest := fun _ => rfl }
  · exact {
      oneRead := by simp
      body := hbody herr
      counter := by simp
      invoked := Or.inr (by simp [hrequests])
      atCompletion := by
        rw [hlast]
        simp [herr, hzero]
      first := fun _ _ _ => after_eq_nil hopen
      afterError := by
        intro hany
        rw [herrors hany] at herr
        simp at herr
      afterRequest := fun _ => rfl }
  · have hleft : left - cb.size + BitVec.ofNat 64 (h.mRequestBody ++ cb.range).length = n := by
      rw [← hcounter, List.length_append, BitVec.ofNat_add, ReadCallback.size]
      bv_omega
    exact {
      oneRead := by simp
      body := hbody herr
      counter := by simpa using hleft
      invoked := Or.inl hrequests
      atCompletion := by
        rw [hlast]
        exact ⟨fun hinvoked => absurd hrequests hinvoked, fun hdone => absurd hdone.2 hmore⟩
      first := fun _ _ _ => after_eq_nil hopen
      afterError := by
        intro hany
        rw [herrors hany] at herr
        simp at herr
      afterRequest := fun hinvoked => absurd hrequests hinvoked }

/-- The invariant holds in every state that callbacks reach, whatever the initial count. -/
theorem readInvariant_callbacks (n : BitVec 64) (cbs : List ReadCallback) (h : ConnectionHandler)
    (hrun : (new.readChunk n).callbacks cbs = some h) : ReadInvariant n cbs h := by
  induction cbs using List.reverseRecOn generalizing h with
  | nil =>
    obtain rfl : new.readChunk n = h := by simpa [callbacks] using hrun
    exact readInvariant_start n
  | append_singleton before cb ih =>
    rw [callbacks_snoc, Option.bind_eq_some_iff] at hrun
    obtain ⟨h₁, hbefore, hcb⟩ := hrun
    exact readInvariant_callback (ih h₁ hbefore) hcb

/-- Five bytes in two callbacks. -/
theorem readInvariant_callbacks_sample :
    ReadInvariant 5 [⟨false, lit "he", by decide⟩, ⟨false, lit "llo", by decide⟩]
      ⟨lit "hello", [], [lit "hello"]⟩ :=
  readInvariant_callbacks 5 _ _ (by decide)

end Ipvshttpd
