import Ipvshttpd.Concurrency
import Ipvshttpd.Proofs.DestinationProofs
import Ipvshttpd.Proofs.VerdictProofs

/-!
# Proofs: the destination that a request names

A handler makes its update after the two parses of `set_weight` and nothing else, so the update that
it makes is the one that the parses name (`setWeight_named`). The handler reaches `set_weight` with
what its request asks for (`handlePostRequest_named`).
-/

namespace Ipvshttpd

open CLib Resumption Prog

variable {jc : Jsoncpp} {libc : Libc} {config : ConfigurationManager} {conn : Connection} {body : Str}
variable {A : List CallEvent → Call → Prop} {tr₀ : List CallEvent} {vip server : Str} {weight : Int}

/-- A call of `ipvs_update_dest`. -/
def Call.IsUpdate : Call → Prop
  | .updateDest _ _ => True
  | _ => False

/-- Calls that are no updates are allowed in any order. -/
theorem permits_recording (hA : ∀ tr e, ¬ Call.IsUpdate e → A tr e) {tr : List CallEvent}
    (h : ∀ ev ∈ tr, ¬ Call.IsUpdate ev.1) (tr₀ : List CallEvent) :
    (Monitor.recording A).Permits tr₀ tr := by
  induction tr generalizing tr₀ with
  | nil => trivial
  | cons ev tr ih =>
    rw [List.forall_mem_cons] at h
    exact ⟨hA tr₀ ev.1 h.1, ih h.2 _⟩

theorem reportTrace_noUpdate (conn : Connection) (message : Str) (status : Status) :
    ∀ ev ∈ reportTrace conn message status, ¬ Call.IsUpdate ev.1 := by
  intro ev hev
  have hmem := reportTrace_subset message status hev
  simp only [List.mem_cons, List.not_mem_nil, or_false] at hmem
  rcases hmem with rfl | rfl | rfl | rfl <;> exact not_false

theorem replyTrace_noUpdate (conn : Connection) (status : Status) (text : Str) :
    ∀ ev ∈ replyTrace conn status text, ¬ Call.IsUpdate ev.1 := by
  unfold replyTrace
  cases conn.raises .setStatus <;> cases conn.raises .setHeaders <;> cases conn.raises .write <;>
    simp [Call.IsUpdate]

/-- The only update of `set_weight` comes right after the two parses, and it is of the destination that
    they name. -/
theorem setWeight_named (hA : ∀ tr e, ¬ Call.IsUpdate e → A tr e)
    (hupdate : ∀ vipCalls hostCalls v d svc dest,
      (mParseService libc vip blankService).Steps vipCalls (.ret v) →
      (mParseService libc server blankService).Steps hostCalls (.ret d) →
      v.HasAddr → d.HasAddr → v.svc.port ≠ 0 → Targets v d weight svc dest →
      A (tr₀ ++ (vipCalls ++ hostCalls)) (.updateDest svc dest)) :
    (setWeight libc vip server weight).wp (Monitor.recording A) (fun _ _ => True)
      (fun _ _ => False) tr₀ := by
  have hresolver : ∀ tr e, Call.IsResolver e → A tr e := by
    intro tr e he
    refine hA tr e ?_
    cases e <;> first | exact he.elim | exact not_false
  have hlog : ∀ (message : Str) (res : SetWeightResult) (tr : List CallEvent),
      (Act.logError message >>= fun _ => pure res : Act SetWeightResult).wp (Monitor.recording A)
        (fun _ _ => True) (fun _ _ => False) tr :=
    fun message res tr => ⟨hA tr _ not_false, fun _ => trivial⟩
  unfold setWeight
  rw [bind_eq, wp_bind]
  refine wp_mono ?_ (fun _ _ h => h)
    (wp_recording hresolver (mParseService_only libc vip blankService) tr₀)
  rintro _ v ⟨⟨-, hkept⟩, vipCalls, rfl, hv⟩
  refine wp_ite _ _ _ _ (fun _ => hlog _ _ _) fun hvip => ?_
  rw [bind_eq, wp_bind]
  refine wp_mono ?_ (fun _ _ h => h)
    (wp_recording hresolver (mParseService_only libc server v.svc) (tr₀ ++ vipCalls))
  rintro _ d' ⟨-, hostCalls, rfl, hd'⟩
  obtain ⟨d, hd, hagrees⟩ := (mParseService_related libc server hkept.protocol).steps hd'
  refine wp_ite _ _ _ _ (fun _ => hlog _ _ _) fun hserver => ?_
  refine wp_ite _ _ _ _ (fun _ => hlog _ _ _) fun hport => ?_
  refine wp_ite _ _ _ _ (fun _ => hlog _ _ _) fun _ => ?_
  have haddr : d.HasAddr := by
    unfold Parsed.HasAddr
    rw [← hagrees.result]
    exact hserver
  refine ⟨?_, fun _ => trivial⟩
  rw [List.append_assoc]
  have hsched : v.svc.schedName = [] := hkept.schedName
  rw [if_pos hsched]
  have htargets := targets_of_parses hkept hagrees haddr weight
  refine hupdate vipCalls hostCalls v d _ _ hv hd hvip haddr (fun hzero => hport ?_) ?_
  · exact ⟨hkept.fwmark, hzero, by rw [hkept.flags]; rfl⟩
  · by_cases hone : d'.result = 1
    · rw [if_pos hone] at htargets ⊢
      exact htargets
    · rw [if_neg hone] at htargets ⊢
      exact htargets

/-- What the handler does around `set_weight` is no update. -/
theorem updateWeight_named (hA : ∀ tr e, ¬ Call.IsUpdate e → A tr e) (cVip : Str)
    {hostname kernels : Value}
    (hupdate : ∀ host weight tr vipCalls hostCalls v d svc dest,
      hostname.asString jc = .ok host → kernels.asInt = .ok weight →
      (mParseService libc (cStr cVip) blankService).Steps vipCalls (.ret v) →
      (mParseService libc host blankService).Steps hostCalls (.ret d) →
      v.HasAddr → d.HasAddr → v.svc.port ≠ 0 → Targets v d weight svc dest →
      A (tr ++ [⟨.enterSetWeight (cStr cVip) host weight, ()⟩] ++ (vipCalls ++ hostCalls))
        (.updateDest svc dest)) :
    (updateWeight jc libc conn cVip hostname kernels).wp (Monitor.recording A) (fun _ _ => True)
      (fun _ _ => True) tr₀ := by
  refine ⟨hA _ _ not_false, fun _ => ?_⟩
  show ((Prog.ofExcept (hostname.asString jc)).bind _).wp _ _ _ _
  cases hs : hostname.asString jc with
  | error x => trivial
  | ok host =>
    show ((Prog.ofExcept kernels.asInt).bind _).wp _ _ _ _
    cases hk : kernels.asInt with
    | error x => trivial
    | ok weight =>
      refine ⟨hA _ _ not_false, fun _ => ?_⟩
      show (((setWeight libc (cStr cVip) host weight).bind _).bind _).wp _ _ _ _
      rw [wp_bind, wp_bind]
      refine wp_mono ?_ (fun _ _ h => h.elim) (setWeight_named hA fun vipCalls hostCalls v d svc dest =>
        hupdate host weight _ vipCalls hostCalls v d svc dest hs hk)
      rintro tr res -
      refine ⟨hA _ _ not_false, fun _ => ?_⟩
      dsimp only
      refine wp_ite _ _ _ _ (fun _ => ?_) fun _ => ?_
      · show ((reportError conn (lit "Could not set weight.") .internalServerError).bind _).wp _ _ _ _
        rw [wp_bind]
        exact wp_mono (fun _ _ _ => ⟨hA _ _ not_false, fun _ => trivial⟩) (fun _ _ _ => trivial)
          (reportError_wp (permits_recording hA (reportTrace_noUpdate conn _ _) _))
      · exact reply_wp (permits_recording hA (replyTrace_noUpdate conn _ _) _)
          (fun _ => ⟨hA _ _ not_false, fun _ => trivial⟩) fun _ => trivial

/-- Every update of a handler is of the destination that its request names. -/
theorem handlePostRequest_named (jc : Jsoncpp) (libc : Libc) (config : ConfigurationManager)
    (conn : Connection) (body : Str) :
    (handlePostRequest jc libc config conn body).wp
      (Monitor.recording fun before e => ∀ svc dest, e = .updateDest svc dest →
        UpdateNamed jc libc config body before svc dest)
      (fun _ _ => True) (fun _ _ => True) [] := by
  have hA : ∀ (tr : List CallEvent) (e : Call), ¬ Call.IsUpdate e → ∀ svc dest,
      e = .updateDest svc dest → UpdateNamed jc libc config body tr svc dest := by
    rintro tr e he svc dest rfl
    exact absurd trivial he
  rw [handlePostRequest_eq, wp_bind]
  refine wp_mono ?_ (fun _ _ h => h) (readConfiguration_wp
    (permits_recording hA (by simp [readTrace, Call.IsUpdate]) []))
  rintro tr - -
  cases hv : verdict jc config body with
  | reject message status =>
    exact wp_mono (fun _ _ _ => trivial) (fun _ _ _ => trivial)
      (reportError_wp (permits_recording hA (reportTrace_noUpdate conn _ _) _))
  | abort x => trivial
  | grant hostname kernels =>
    refine updateWeight_named hA config.getVip ?_
    intro host weight tr vipCalls hostCalls v d svc dest hs hk hvip hhost h1 h2 h3 h4
    rintro _ _ ⟨⟩
    refine ⟨host, weight, tr, vipCalls, hostCalls, v, d, ?_, ?_, hvip, hhost, h1, h2, h3, h4⟩
    · unfold requestedUpdate
      rw [hv]
      simp only [hs, hk]
    · rw [List.append_assoc, List.singleton_append]

end Ipvshttpd
