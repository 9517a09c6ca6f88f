import Ipvshttpd.IpvsInterface
import Ipvshttpd.Resumption.Proofs.ProgramProofs

/-!
# Proofs: the calls of the IPVS interface

`m_parse_service` calls nothing but the name service, and `set_weight` calls nothing but the name
service, the log and `ipvs_update_dest`, which it calls at most once and last. None of them raises an
exception. Both facts are weakest preconditions for an arbitrary monitor, given an invariant `I` of
its ghost states that the calls in question keep.
-/

namespace Ipvshttpd

open CLib Resumption Prog

variable {Q : Type} {M : Monitor Call Call.Answer Q} {I J : Q → Prop} {q : Q}

/-- A question to the name service. -/
def Call.IsResolver : Call → Prop
  | .gethostbyname _ | .getservbyname _ _ => True
  | _ => False

/-- The invariant `I` is kept by the calls of the kind `K`, which the monitor allows under it. -/
def Keeps (M : Monitor Call Call.Answer Q) (K : Call → Prop) (I : Q → Prop) : Prop :=
  ∀ q e, I q → K e → M.allows q e ∧ ∀ r, I (M.next q e r)

theorem Keeps.mono {K K' : Call → Prop} (hI : Keeps M K I) (hK : ∀ e, K' e → K e) :
    Keeps M K' I := fun q e hq he => hI q e hq (hK e he)

/-! ## `m_parse_service` -/

/-- What the parser leaves of a service. -/
structure Service.KeptBy (svc svc' : Service) : Prop where
  protocol : svc'.protocol = svc.protocol
  fwmark : svc'.fwmark = svc.fwmark
  flags : svc'.flags = svc.flags
  schedName : svc'.schedName = svc.schedName

theorem Service.KeptBy.refl (svc : Service) : svc.KeptBy svc := ⟨rfl, rfl, rfl, rfl⟩

section Parse

variable (hI : Keeps M Call.IsResolver I) {exn : Q → Exn → Prop}
include hI

theorem hostToAddr_wp (name : Str) (hq : I q) : (hostToAddr name).wp M (fun q _ => I q) exn q := by
  unfold hostToAddr
  rw [bind_eq, wp_bind]
  obtain ⟨hallow, hnext⟩ := hI q (.gethostbyname name) hq trivial
  refine ⟨hallow, fun r => ?_⟩
  cases r with
  | none => exact hnext _
  | some host => exact wp_ite _ _ _ _ (fun _ => hnext _) (fun _ => hnext _)

theorem mServiceToPort_wp (name : Str) (proto : BitVec 16) (hq : I q) :
    (mServiceToPort name proto).wp M (fun q _ => I q) exn q := by
  -- the three questions differ in the protocol, and share what is done with the answer
  have hask : ∀ (protoName : Str) (k : Option (BitVec 16) → Act Int),
      (∀ q, I q → (k none).wp M (fun q _ => I q) exn q ∧
        ∀ sPort, (k (some sPort)).wp M (fun q _ => I q) exn q) →
      (Act.getservbyname name protoName >>= k).wp M (fun q _ => I q) exn q := by
    intro protoName k hk
    rw [bind_eq, wp_bind]
    obtain ⟨hallow, hnext⟩ := hI q (.getservbyname name protoName) hq trivial
    refine ⟨hallow, fun r => ?_⟩
    cases r with
    | none => exact (hk _ (hnext _)).1
    | some sPort => exact (hk _ (hnext _)).2 sPort
  unfold mServiceToPort
  refine wp_ite _ _ _ _ (fun _ => hask _ _ fun _ hq => ⟨hq, fun _ => hq⟩) fun _ => ?_
  refine wp_ite _ _ _ _ (fun _ => hask _ _ fun _ hq => ⟨hq, fun _ => hq⟩) fun _ => ?_
  exact wp_ite _ _ _ _ (fun _ => hask _ _ fun _ hq => ⟨hq, fun _ => hq⟩) fun _ => hq

theorem mParsePort_wp (buf : Str) (portp : Option Nat) {svc₀ svc : Service} (hsvc : svc₀.KeptBy svc)
    (hq : I q) :
    (mParsePort buf portp svc).wp M (fun q parsed => I q ∧ svc₀.KeptBy parsed.svc) exn q := by
  have hport : ∀ p, svc₀.KeptBy { svc with port := p } :=
    fun _ => ⟨hsvc.protocol, hsvc.fwmark, hsvc.flags, hsvc.schedName⟩
  unfold mParsePort
  cases portp with
  | none => exact ⟨hq, hsvc⟩
  | some i =>
    refine wp_ite _ _ _ _ (fun _ => ⟨hq, hport _⟩) fun _ => ?_
    rw [bind_eq, wp_bind]
    refine wp_mono (fun q _ hq => ?_) (fun _ _ h => h) (mServiceToPort_wp hI _ _ hq)
    exact wp_ite _ _ _ _ (fun _ => ⟨hq, hport _⟩) fun _ => ⟨hq, hsvc⟩

theorem mParseAddr_wp (libc : Libc) (buf : Str) (start : Nat) (portp : Option Nat) (svc : Service)
    (hq : I q) : (mParseAddr libc buf start portp svc).wp M
      (fun q parsed => I q ∧ svc.KeptBy parsed.svc) exn q := by
  have haddr : ∀ addr af netmask,
      svc.KeptBy { svc with addr := addr, af := af, netmask := netmask } :=
    fun _ _ _ => ⟨rfl, rfl, rfl, rfl⟩
  unfold mParseAddr
  split
  · exact mParsePort_wp hI _ _ (haddr _ _ _) hq
  · dsimp only
    split
    · exact mParsePort_wp hI _ _ (haddr _ _ _) hq
    · rw [bind_eq, wp_bind]
      refine wp_mono (fun q r hq => ?_) (fun _ _ h => h) (hostToAddr_wp hI _ hq)
      cases r with
      | none => exact ⟨hq, .refl svc⟩
      | some inaddr => exact mParsePort_wp hI _ _ (haddr _ _ _) hq

/-- The parser asks the name service and does nothing else, and it sets the address and the port of
    its service only. -/
theorem mParseService_wp (libc : Libc) (buf : Str) (svc : Service) (hq : I q) :
    (mParseService libc buf svc).wp M (fun q parsed => I q ∧ svc.KeptBy parsed.svc) exn q := by
  unfold mParseService
  refine wp_ite _ _ _ _ (fun _ => ⟨hq, .refl svc⟩) fun _ => wp_ite _ _ _ _ (fun _ => ?_) fun _ => ?_
  · split
    · exact ⟨hq, .refl svc⟩
    · exact wp_ite _ _ _ _ (fun _ => mParseAddr_wp hI _ _ _ _ _ hq) fun _ => ⟨hq, .refl svc⟩
  · exact mParseAddr_wp hI _ _ _ _ _ hq

end Parse

/-! ## `set_weight` -/

/-- The calls of `set_weight` before `ipvs_update_dest`. -/
def Call.IsLookup : Call → Prop
  | .gethostbyname _ | .getservbyname _ _ | .log _ => True
  | _ => False

theorem Call.IsResolver.isLookup {e : Call} (h : e.IsResolver) : e.IsLookup := by
  cases e <;> trivial

/-- `set_weight` reports success exactly if it has called `ipvs_update_dest` with the given weight
    and got 0. -/
theorem setWeight_wp {exn : Q → Exn → Prop} (libc : Libc) (vip server : Str) (weight : Int)
    (hI : Keeps M Call.IsLookup I)
    (hupdate : ∀ q svc dest, I q → dest.weight = weight → M.allows q (.updateDest svc dest))
    (hq : I q) :
    (setWeight libc vip server weight).wp M
      (fun q res => (res.success = false ∧ I q) ∨ ∃ q₀ svc dest, ∃ r : Int, I q₀ ∧
        dest.weight = weight ∧ q = M.next q₀ (.updateDest svc dest) r ∧
        res.success = decide (r = 0)) exn q := by
  have hres := hI.mono fun _ => Call.IsResolver.isLookup
  -- an early return logs its reason
  have hfail : ∀ {q} (message server : Str), I q →
      (Act.logError message >>= fun _ => pure ⟨false, server⟩ : Act SetWeightResult).wp M
        (fun q res => (res.success = false ∧ I q) ∨ ∃ q₀ svc dest, ∃ r : Int, I q₀ ∧
          dest.weight = weight ∧ q = M.next q₀ (.updateDest svc dest) r ∧
          res.success = decide (r = 0)) exn q := by
    intro q message server hq
    obtain ⟨hallow, hnext⟩ := hI q (.log (.error message)) hq trivial
    exact ⟨hallow, fun r => Or.inl ⟨rfl, hnext r⟩⟩
  unfold setWeight
  dsimp only
  rw [bind_eq, wp_bind]
  refine wp_mono (fun q parsedVip hq => ?_) (fun _ _ h => h) (mParseService_wp hres _ _ _ hq)
  obtain ⟨hq, -⟩ := hq
  refine wp_ite _ _ _ _ (fun _ => hfail _ _ hq) fun _ => ?_
  rw [bind_eq, wp_bind]
  refine wp_mono (fun q parsed hq => ?_) (fun _ _ h => h) (mParseService_wp hres _ _ _ hq)
  obtain ⟨hq, -⟩ := hq
  refine wp_ite _ _ _ _ (fun _ => hfail _ _ hq) fun _ => ?_
  refine wp_ite _ _ _ _ (fun _ => hfail _ _ hq) fun _ => ?_
  refine wp_ite _ _ _ _ (fun _ => hfail _ _ hq) fun _ => ?_
  rw [bind_eq, wp_bind]
  refine ⟨hupdate q _ _ hq ?_, fun r => Or.inr ⟨q, _, _, r, hq, ?_, rfl, rfl⟩⟩ <;>
    split <;> rfl

end Ipvshttpd
