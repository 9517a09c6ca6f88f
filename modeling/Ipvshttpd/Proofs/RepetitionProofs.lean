import Ipvshttpd.Proofs.DestinationProofs
import Ipvshttpd.Proofs.ServiceGrammarProofs
import Ipvshttpd.Proofs.TargetProofs
import Ipvshttpd.Rendering
import Ipvshttpd.Repetition

/-!
# Proofs: the same call again

Of every shape of a text it is known what the parser finds in it and whether it writes into it. What
`set_weight` attempts depends on the two parses only, so a second call attempts the same if the first
one has left the server alone.
-/

namespace Ipvshttpd

open CLib Resumption Prog

variable {libc : Libc} {rs : Resolver} {svc : Service} {proto : BitVec 16} {buf s suf h p a t : Str}
variable {v d : Parsed} {S : Type}

/-! ## The shapes of a text -/

theorem bracketText_iff (hclosed : 93 ∉ a) : BracketText libc rs proto (91 :: (a ++ 93 :: t)) ↔
    ∃ p, t = 58 :: p ∧ ((libc.inetPton6 a ≠ none ∧ portOf rs proto p ≠ none) ∨
      (libc.inetPton6 a = none ∧ HostText libc rs proto a)) := by
  unfold BracketText
  constructor
  · rintro ⟨a', p, heq, hclosed', hrest⟩
    obtain ⟨rfl, rfl⟩ := first_unique hclosed hclosed' (List.cons.inj heq).2
    exact ⟨p, rfl, hrest⟩
  · rintro ⟨p, rfl, hrest⟩
    exact ⟨a, p, rfl, hclosed, hrest⟩

theorem designates_bracket : Designates libc rs proto (91 :: t) ↔ BracketText libc rs proto (91 :: t) := by
  unfold Designates
  rw [all_isdigit_bracket]
  simp

theorem designates_plain (hdigits : s.all isdigit = false) (hhead : s.headD 0 ≠ 91) :
    Designates libc rs proto s ↔ libc.inetPton6 s ≠ none ∨ HostText libc rs proto s := by
  unfold Designates
  rw [or_iff_right fun h => hhead h.1, and_iff_right hhead, and_iff_right hdigits]

theorem cut_bracket : Cut libc (91 :: t) ↔ 93 ∈ t := by
  unfold Cut
  simp

theorem cut_plain (hhead : s.headD 0 ≠ 91) : Cut libc s ↔ 58 ∈ s ∧ libc.inetPton6 s = none := by
  unfold Cut
  rw [or_iff_right fun h => hhead h.1, and_iff_right hhead]

theorem buf_port (a : Addr) (buf : Str) (port : Option (BitVec 16)) :
    (port.elim (⟨serviceNone, svc.withAddr a, buf⟩ : Parsed) fun port =>
      ⟨serviceNone ||| serviceAddr ||| servicePort, (svc.withAddr a).withPort port, buf⟩).buf = buf := by
  cases port with
  | none => rfl
  | some port => rfl

theorem buf_host (buf : Str) (ip : Option (BitVec 32)) :
    (ip.elim (⟨serviceNone, svc, buf⟩ : Parsed) fun ip =>
      ⟨serviceNone ||| serviceAddr, svc.withAddr (.v4 ip), buf⟩).buf = buf := by
  cases ip with
  | none => rfl
  | some ip => rfl

theorem buf_hostPort (buf : Str) (ip : Option (BitVec 32)) (port : Option (BitVec 16)) :
    (ip.elim (⟨serviceNone, svc, buf⟩ : Parsed) fun ip =>
      port.elim ⟨serviceNone, svc.withAddr (.v4 ip), buf⟩ fun port =>
        ⟨serviceNone ||| serviceAddr ||| servicePort, (svc.withAddr (.v4 ip)).withPort port, buf⟩).buf =
      buf := by
  cases ip with
  | none => rfl
  | some ip => exact buf_port (.v4 ip) buf port

/-- The parser finds an address in the texts that designate one, and it leaves its buffer alone unless
    the text is cut. -/
theorem parse_effect (libc : Libc) (rs : Resolver) (hsuf : suf.headD 0 = 0) (hnul : 0 ∉ s)
    (svc : Service) :
    ∃ r, rs.parse libc (s ++ suf) svc = some r ∧
      (r.HasAddr ↔ Designates libc rs svc.protocol s) ∧ (r.buf = s ++ suf ↔ ¬ Cut libc s) := by
  have hnone : ∀ buf, Parsed.Finds svc ⟨serviceNone, svc, buf⟩ none := fun _ => rfl
  cases shape libc s with
  | digits hdigits =>
    refine ⟨_, parse_digits hsuf hnul hdigits, ?_, ?_⟩
    · rw [(hnone _).hasAddr_iff]
      unfold Designates
      simp [hdigits]
    · have hplain : ∀ c, isdigit c = false → c ∉ s := by
        intro c hc hmem
        rw [List.all_eq_true.1 hdigits c hmem] at hc
        cases hc
      refine iff_of_true rfl ?_
      rintro (⟨-, hclose⟩ | ⟨-, hcolon, -⟩)
      · exact hplain 93 rfl hclose
      · exact hplain 58 rfl hcolon
  | unclosed hclosed =>
    rename_i t
    rw [List.mem_cons, not_or] at hnul
    refine ⟨_, parse_unclosed hsuf hnul.2 hclosed, ?_, ?_⟩
    · rw [(hnone _).hasAddr_iff, designates_bracket]
      refine iff_of_false (not_not.2 rfl) ?_
      rintro ⟨a, p, heq, -⟩
      rw [(List.cons.inj heq).2] at hclosed
      exact hclosed (by simp)
    · rw [cut_bracket]
      exact iff_of_true rfl hclosed
  | bracketOpen hclosed hcolon =>
    rename_i a t
    simp only [List.mem_cons, List.mem_append, not_or] at hnul
    refine ⟨_, parse_bracket_open hsuf hnul.2.1 hnul.2.2.2 hclosed hcolon, ?_, ?_⟩
    · rw [(hnone _).hasAddr_iff, designates_bracket, bracketText_iff hclosed]
      refine iff_of_false (not_not.2 rfl) ?_
      rintro ⟨p, rfl, -⟩
      exact hcolon rfl
    · rw [cut_bracket]
      refine iff_of_false ?_ (not_not.2 (by simp))
      simp
  | bracketV6 hclosed hv6 =>
    rename_i a p in6
    simp only [List.mem_cons, List.mem_append, not_or] at hnul
    refine ⟨_, parse_bracket_v6 hsuf hnul.2.1 hnul.2.2.2.2 hclosed hv6, ?_, ?_⟩
    · rw [(finds_port _ _ _ _).hasAddr_iff, designates_bracket, bracketText_iff hclosed]
      simp [hv6]
    · rw [buf_port, cut_bracket]
      refine iff_of_false ?_ (not_not.2 (by simp))
      simp
  | bracketHost hclosed hv6 hcolon =>
    rename_i a p
    simp only [List.mem_cons, List.mem_append, not_or] at hnul
    refine ⟨_, parse_bracket_host hsuf hnul.2.1 hnul.2.2.2.2 hclosed hv6 hcolon, ?_, ?_⟩
    · rw [(finds_host _ _ _).hasAddr_iff, designates_bracket, bracketText_iff hclosed,
        hostText_host hcolon]
      simp [hv6]
    · rw [buf_host, cut_bracket]
      refine iff_of_false ?_ (not_not.2 (by simp))
      simp
  | bracketHostPort hclosed hv6 hcolon =>
    rename_i h q p
    simp only [List.mem_cons, List.mem_append, not_or] at hnul
    refine ⟨_, parse_bracket_hostPort hsuf hnul.2.1.1 hnul.2.1.2.2 hnul.2.2.2.2 hclosed hv6 hcolon,
      ?_, ?_⟩
    · rw [(finds_hostPort _ _ _ _).hasAddr_iff, designates_bracket, bracketText_iff hclosed,
        hostText_hostPort hcolon, found_hostPort]
      simp [hv6]
    · rw [buf_hostPort, cut_bracket]
      refine iff_of_false ?_ (not_not.2 (by simp))
      simp
  | v6 hdigits hhead hv6 =>
    rename_i in6
    have hfinds : Parsed.Finds svc ⟨serviceNone ||| serviceAddr, svc.withAddr (.v6 in6), s ++ suf⟩
        (some (Addr.v6 in6, none)) := ⟨rfl, rfl⟩
    refine ⟨_, parse_v6 hsuf hnul hdigits hhead hv6, ?_, ?_⟩
    · rw [hfinds.hasAddr_iff, designates_plain hdigits hhead]
      simp [hv6]
    · rw [cut_plain hhead]
      simp [hv6]
  | host hdigits hhead hv6 hcolon =>
    refine ⟨_, parse_host hsuf hnul hdigits hhead hv6 hcolon, ?_, ?_⟩
    · rw [(finds_host _ _ _).hasAddr_iff, designates_plain hdigits hhead, hostText_host hcolon]
      simp [hv6]
    · rw [buf_host, cut_plain hhead]
      simp [hcolon]
  | hostPort hhead hv6 hcolon =>
    rename_i h p
    simp only [List.mem_cons, List.mem_append, not_or] at hnul
    refine ⟨_, parse_hostPort hsuf hnul.1 hnul.2.2 hhead hv6 hcolon, ?_, ?_⟩
    · rw [(finds_hostPort _ _ _ _).hasAddr_iff, designates_plain (all_isdigit_colon h p) hhead,
        hostText_hostPort hcolon, found_hostPort]
      simp [hv6]
    · rw [buf_hostPort, cut_plain hhead]
      simp [hv6]

/-! ## Attempts -/

theorem attempts_append (tr tr' : List CallEvent) :
    attempts (tr ++ tr') = attempts tr ++ attempts tr' :=
  List.filterMap_append

theorem attempts_of_resolver {tr : List CallEvent} (h : ∀ ev ∈ tr, ev.1.IsResolver) :
    attempts tr = [] := by
  refine filterMap_of_resolver ?_ h
  intro e r he
  cases e <;> first | rfl | exact he.elim

/-- The end of `set_weight` returns the buffer of the server as the parser has left it. -/
theorem finishSetWeight_attempts (hvip : v.HasAddr) (d : Parsed) (weight : Int)
    (env : Env Call Call.Answer S) (s : S) :
    attempts ((finishSetWeight v d weight).run env s).trace = attemptsOf v d ∧
      ∃ success, ((finishSetWeight v d weight).run env s).outcome = .ok ⟨success, d.buf⟩ := by
  unfold finishSetWeight attemptsOf
  rw [if_neg (not_not.2 hvip)]
  by_cases hserver : d.HasAddr
  · rw [if_neg (not_not.2 hserver), if_neg (not_not.2 hserver)]
    by_cases hport : v.svc.port = 0
    · rw [if_pos hport, if_pos hport]
      exact ⟨rfl, _, rfl⟩
    · rw [if_neg hport, if_neg hport]
      exact ⟨rfl, _, rfl⟩
  · rw [if_pos hserver, if_pos hserver]
    exact ⟨rfl, _, rfl⟩

/-- What a run of `set_weight` attempts, and what it leaves in the buffer of the server, in terms of
    the two parses. -/
theorem setWeight_attempts (useNl : Bool) (libc : Libc) (rs : Resolver) (t : Table) (server : Str)
    {vip : Str} (weight : Int) (hv : rs.parse libc vip blankService = some v)
    (hd : rs.parse libc server v.svc = some d) :
    attempts ((setWeight libc vip server weight).run (kernelEnv useNl rs) t).trace = attemptsOf v d ∧
      ∃ success, ((setWeight libc vip server weight).run (kernelEnv useNl rs) t).outcome =
        .ok ⟨success, if v.HasAddr then d.buf else server⟩ := by
  obtain ⟨tr, hcalls, hrun⟩ := setWeight_kernel useNl t hv hd weight
  rw [hrun]
  dsimp only
  rw [attempts_append, attempts_of_resolver hcalls, List.nil_append]
  by_cases hvip : v.HasAddr
  · rw [if_pos hvip, if_pos hvip]
    exact finishSetWeight_attempts hvip d weight (kernelEnv useNl rs) t
  · rw [if_neg hvip, if_neg hvip]
    unfold attemptsOf
    rw [if_pos hvip]
    exact ⟨rfl, false, rfl⟩

/-! ## The second call -/

/-- The second call attempts what the first has attempted, and the server is left as it was, unless
    the virtual address is one and the text of the server is cut. -/
theorem setWeight_repeats_iff (useNl : Bool) (libc : Libc) (rs : Resolver) (t : Table)
    (vip server : Str) (weight weight' : Int) :
    Repeats useNl libc rs t vip server weight weight' ↔
      ¬ (Designates libc rs ipprotoTcp (cStr vip) ∧ Cut libc (cStr server)) := by
  obtain ⟨suf, hvip, hsuf, hnul⟩ := exists_cStr_append vip
  obtain ⟨suf', hserver, hsuf', hnul'⟩ := exists_cStr_append server
  obtain ⟨v, hv, hdesignates, -⟩ := parse_effect libc rs hsuf hnul blankService
  obtain ⟨d, hd, -, hbuf⟩ := parse_effect libc rs hsuf' hnul' v.svc
  rw [← hvip] at hv
  rw [← hserver] at hd hbuf
  have hdesignates' : v.HasAddr ↔ Designates libc rs ipprotoTcp (cStr vip) := hdesignates
  obtain ⟨hattempts, success, hreturn⟩ := setWeight_attempts useNl libc rs t server weight hv hd
  rw [← hdesignates']
  constructor
  · rintro ⟨res, hres, hsame, -⟩ ⟨haddr, hcut⟩
    rw [hreturn, Except.ok.injEq, if_pos haddr] at hres
    refine hbuf.1 ?_ hcut
    rw [← hsame, ← hres]
  · intro hleft
    have hsame : (if v.HasAddr then d.buf else server) = server := by
      by_cases haddr : v.HasAddr
      · rw [if_pos haddr]
        exact hbuf.2 fun hcut => hleft ⟨haddr, hcut⟩
      · rw [if_neg haddr]
    rw [hsame] at hreturn
    refine ⟨_, hreturn, rfl, ?_⟩
    rw [hattempts]
    exact (setWeight_attempts useNl libc rs _ server weight' hv hd).1

/-- The port of the server is cut off by the first call; the second takes that of the virtual
    address. -/
theorem setWeight_forgets_port :
    let libc : Libc := ⟨inet6Address, quadAddress⟩
    ¬ Repeats true libc .empty (fun _ => none) (lit "10.0.0.1:80") (lit "10.0.0.2:8080") 4 5 ∧
      attempts ((setWeight libc (lit "10.0.0.1:80") (lit "10.0.0.2:8080") 4).run
        (kernelEnv true .empty) fun _ => none).trace = [.update (.v4 0x0200000a) (htons 8080)] ∧
      (((setWeight libc (lit "10.0.0.1:80") (lit "10.0.0.2:8080") 4).run
        (kernelEnv true .empty) fun _ => none).outcome.toOption.map SetWeightResult.server) =
          some (lit "10.0.0.2" ++ 0 :: lit "8080") ∧
      attempts ((setWeight libc (lit "10.0.0.1:80") (lit "10.0.0.2" ++ 0 :: lit "8080") 5).run
        (kernelEnv true .empty) fun _ => none).trace = [.update (.v4 0x0200000a) (htons 80)] := by
  intro libc
  have hserver : (((setWeight libc (lit "10.0.0.1:80") (lit "10.0.0.2:8080") 4).run
      (kernelEnv true .empty) fun _ => none).outcome.toOption.map SetWeightResult.server) =
        some (lit "10.0.0.2" ++ 0 :: lit "8080") := by decide
  refine ⟨?_, by decide, hserver, by decide⟩
  rintro ⟨res, hres, hsame, -⟩
  rw [hres] at hserver
  have hbuf : res.server = lit "10.0.0.2" ++ 0 :: lit "8080" := Option.some.inj hserver
  rw [hsame] at hbuf
  exact absurd hbuf (by decide)

end Ipvshttpd
