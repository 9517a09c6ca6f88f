import Ipvshttpd.Proofs.RequestHandlerProofs

/-!
# Proofs: decisions

What the decision about a body is, in terms of the members of its object.
-/

namespace Ipvshttpd

open CLib

variable {jc : Jsoncpp} {config : ConfigurationManager} {body : Str} {ms : List (Str × Value)}

theorem verdict_object (config : ConfigurationManager) (h : jc.parse body = some (.object ms)) :
    verdict jc config body = verdictObject config ms := by
  simp [verdict, h]

theorem verdictObject_of_admits (h : Admits config.mApiKey ms) :
    verdictObject config ms = .grant (field ms "host") (field ms "available_kernels") := by
  obtain ⟨hkey, hhost, hint⟩ := h
  have hnull : (field ms "api_key").isNull = false := by
    rw [Value.eqString_iff.1 hkey]
    rfl
  have hkernels := Value.isNull_of_isInt hint
  simp [verdictObject, ConfigurationManager.getApiKey, hnull, hkey, hhost, hkernels, hint]

theorem verdictObject_of_not_admits (h : ¬ Admits config.mApiKey ms) :
    ∃ message status, verdictObject config ms = .reject message status := by
  unfold verdictObject
  by_cases h1 : (field ms "api_key").isNull = true
  · exact ⟨_, _, if_pos h1⟩
  by_cases h2 : (field ms "api_key").eqString config.getApiKey = false
  · exact ⟨_, _, by rw [if_neg h1, if_pos h2]⟩
  by_cases h3 : (field ms "host").isNull = true
  · exact ⟨_, _, by rw [if_neg h1, if_neg h2, if_pos h3]⟩
  by_cases h4 : (field ms "available_kernels").isNull = true
  · exact ⟨_, _, by rw [if_neg h1, if_neg h2, if_neg h3, if_pos h4]⟩
  by_cases h5 : (field ms "available_kernels").isInt ≠ true
  · exact ⟨_, _, by rw [if_neg h1, if_neg h2, if_neg h3, if_neg h4, if_pos h5]⟩
  · exact absurd ⟨by simpa [ConfigurationManager.getApiKey] using h2, by simpa using h3,
      by simpa using h5⟩ h

/-- A request is granted exactly if it is admitted. -/
theorem verdict_grant {hostname kernels : Value}
    (h : verdict jc config body = .grant hostname kernels) :
    ∃ ms, jc.parse body = some (.object ms) ∧ Admits config.mApiKey ms ∧
      hostname = field ms "host" ∧ kernels = field ms "available_kernels" := by
  cases hp : jc.parse body with
  | none => simp [verdict, hp] at h
  | some root =>
    cases root with
    | object ms =>
      rw [verdict_object config hp] at h
      by_cases hadmits : Admits config.mApiKey ms
      · rw [verdictObject_of_admits hadmits, Verdict.grant.injEq] at h
        exact ⟨ms, rfl, hadmits, h.1.symm, h.2.symm⟩
      · obtain ⟨message, status, hv⟩ := verdictObject_of_not_admits hadmits
        rw [hv] at h
        cases h
    | null | int n | uint n | real q | string s | boolean b | array vs => simp [verdict, hp] at h

/-- The replies that turn a request away are errors. -/
theorem verdict_reject {message : Str} {status : Status}
    (h : verdict jc config body = .reject message status) : status ≠ .ok := by
  rintro rfl
  cases hp : jc.parse body with
  | none => simp [verdict, hp] at h
  | some root =>
    cases root with
    | object ms =>
      rw [verdict_object config hp] at h
      unfold verdictObject at h
      split_ifs at h <;> simp at h
    | null | int n | uint n | real q | string s | boolean b | array vs => simp [verdict, hp] at h

/-- A decision ends in a reply exactly for the answerable bodies. -/
theorem verdict_answers_iff : (verdict jc config body).Answers jc ↔ Answerable jc config body := by
  unfold Answerable
  cases hp : jc.parse body with
  | none => simp [verdict, hp, Verdict.Answers]
  | some root =>
    cases root with
    | object ms =>
      rw [verdict_object config hp]
      by_cases hadmits : Admits config.mApiKey ms
      · obtain ⟨n, hn, -⟩ := Value.asInt_of_isInt hadmits.2.2
        rw [verdictObject_of_admits hadmits]
        simp [Verdict.Answers, Value.asString_ok_iff, hn, hadmits]
      · obtain ⟨message, status, hv⟩ := verdictObject_of_not_admits hadmits
        simp [hv, Verdict.Answers, hadmits]
    | null => simp [verdict, hp, Verdict.Answers]
    | int n | uint n | real q | string s | boolean b | array vs =>
      simp [verdict, hp, Verdict.Answers]

/-- The key of the configuration only matters for bodies that carry it. -/
theorem verdict_eq_of_lacksKey (config config' : ConfigurationManager)
    (h : LacksKey jc config.mApiKey body) (h' : LacksKey jc config'.mApiKey body) :
    verdict jc config body = verdict jc config' body := by
  unfold verdict
  cases hp : jc.parse body with
  | none => rfl
  | some root =>
    cases root with
    | object ms =>
      have hkey := h ms hp
      have hkey' := h' ms hp
      simp [verdictObject, ConfigurationManager.getApiKey, hkey, hkey']
    | null | int n | uint n | real q | string s | boolean b | array vs => rfl

theorem verdict_not_grant_of_lacksKey (h : LacksKey jc config.mApiKey body) (hostname kernels : Value) :
    verdict jc config body ≠ .grant hostname kernels := by
  unfold verdict
  cases hp : jc.parse body with
  | none => simp
  | some root =>
    cases root with
    | object ms =>
      have hnot : ¬ Admits config.mApiKey ms := by
        rintro ⟨hkey, -⟩
        rw [h ms hp] at hkey
        exact Bool.false_ne_true hkey
      obtain ⟨message, status, hv⟩ := verdictObject_of_not_admits hnot
      simp [hv]
    | null | int n | uint n | real q | string s | boolean b | array vs => simp

end Ipvshttpd
