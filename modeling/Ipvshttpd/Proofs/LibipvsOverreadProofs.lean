import Ipvshttpd.Proofs.LibipvsRecordsProofs
import Ipvshttpd.Resumption.Proofs.StatefulProofs

/-!
# Proofs: reads past the end of a payload

When a callback of libipvs reads what a message of the kernel does not have. The getters of libnl are
not among the reads: they are code of libnl.
-/

namespace Ipvshttpd.Libipvs

open CLib Netlink Resumption Lib

variable {S σ τ ε : Type} {nl : Libnl} {env : Env NlCall NlCall.Answer S} {s : S} {v : Statics}

/-- What a callback does with its block has no part in the attributes that it reads. -/
theorem access_outcome {α : Type} (block : Nat) (f : Unit → Lib α) :
    (((Lib.access block >>= f) v).run env s).outcome =
      ((f () v).run env (env (.access block) s).2).outcome := rfl

/-- What becomes of an entry: a fault of its own, or the rest of the callback. -/
theorem ofRead_outcome {α β : Type} (x : Read α) (f : α → Lib β) (fault : ReadFault)
    (hrest : ∀ a, x = .ok a → ((f a v).run env s).outcome ≠ .error (.read fault)) :
    ((((ofRead x : Lib α) >>= f) v).run env s).outcome = .error (.read fault) ↔
      x = .error fault := by
  cases x with
  | ok a =>
    constructor
    · intro h
      exact absurd h (hrest a rfl)
    · intro h
      cases h
  | error fault' =>
    constructor
    · intro h
      cases h
      rfl
    · intro h
      cases h
      rfl

theorem grow_outcome (table : τ) (entry : ε) (block : Nat) (grow : τ → ε → Nat → τ)
    (fault : ReadFault) :
    (((do
      match ← realloc block with
      | none => pure (0, none)
      | some block => pure (0, some (grow table entry block)) : Lib (Int × Option τ)) v).run env
        s).outcome ≠ .error (.read fault) := by
  intro h
  have hcall : ∀ answer : Except Int Nat, (((do
      match ← ofAnswer answer with
      | none => pure (0, none)
      | some block => pure (0, some (grow table entry block)) : Lib (Int × Option τ)) v).run env
        (env (.realloc block) s).2).outcome ≠ .error (.read fault) := by
    intro answer
    cases answer with
    | ok block => exact fun h => by cases h
    | error err => exact fun h => by cases h
  exact hcall (env (.realloc block) s).1 h

/-- A callback for tables reads past a payload exactly if the attributes of its entry make it. -/
theorem tableParseCb_overreads {type maxtype : Nat} {policy : Nat → NlaPolicy}
    {blockOf : τ → Nat} {full : τ → Bool} {read : τ → Attrs → Read (Option ε)}
    {grow : τ → ε → Nat → τ} {past : Attrs → Prop}
    (hpast : ∀ table nla attrs, nl.nlaParse maxtype policy nla = some attrs →
      PastIff (read table attrs) (past attrs)) (msg : Bytes) (table : τ) (fault : ReadFault) :
    ((tableParseCb nl type maxtype policy blockOf full read grow msg (some table) v).run env
        s).outcome = .error (.read fault) ↔
      fault = .readPastPayload ∧ full table = false ∧
        ∃ attrs ∈ entryAttrs nl type maxtype policy msg, past attrs := by
  have hnone : entryAttrs nl type maxtype policy msg = none →
      ¬ (fault = .readPastPayload ∧ full table = false ∧
        ∃ attrs ∈ entryAttrs nl type maxtype policy msg, past attrs) := by
    rintro hnone ⟨-, -, attrs, hattrs, -⟩
    rw [hnone] at hattrs
    cases hattrs
  simp only [tableParseCb]
  rw [access_outcome]
  cases hparse : nl.nlaParse ipvsCmdAttrMax ipvsCmdPolicy msg with
  | none =>
    refine iff_of_false (fun h => by cases h) (hnone ?_)
    simp only [entryAttrs, hparse, Option.bind_eq_bind, Option.bind_none]
  | some attrs =>
  simp only
  cases hnla : attrs type with
  | none =>
    refine iff_of_false (fun h => by cases h) (hnone ?_)
    simp only [entryAttrs, hparse, Option.bind_eq_bind, Option.bind_some, hnla, Option.bind_none]
  | some nla =>
  simp only
  cases hinner : nl.nlaParse maxtype policy nla with
  | none =>
    refine iff_of_false (fun h => by cases h) (hnone ?_)
    simp only [entryAttrs, hparse, Option.bind_eq_bind, Option.bind_some, hnla, hinner]
  | some inner =>
  have hentry : entryAttrs nl type maxtype policy msg = some inner := by
    simp only [entryAttrs, hparse, Option.bind_eq_bind, Option.bind_some, hnla, hinner]
  simp only [hentry, Option.mem_some, exists_eq_left']
  cases hfull : full table with
  | true => exact iff_of_false (fun h => by cases h) fun h => by cases h.2.1
  | false =>
    simp only [Bool.false_eq_true, if_false, true_and]
    rw [← hpast table nla inner hinner fault]
    refine ofRead_outcome _ _ _ fun entry _ => ?_
    cases entry with
    | none => exact fun h => by cases h
    | some entry => exact grow_outcome table entry _ grow fault

theorem daemonParseCb_overreads (block : Nat) (msg : Bytes) (u : DaemonUser × DaemonUser)
    (fault : ReadFault) :
    ((ipvsDaemonParseCb nl block msg u v).run env s).outcome = .error (.read fault) ↔
      (fault = .readPastPayload ∧ ∃ attrs ∈ entryAttrs nl ipvsCmdAttrDaemon ipvsDaemonAttrMax
        ipvsDaemonPolicy msg, DaemonOverread attrs) ∨
      (fault = .missingAttribute ∧ ∃ attrs ∈ nl.nlaParse ipvsCmdAttrMax ipvsCmdPolicy msg,
        attrs ipvsCmdAttrDaemon = none) := by
  simp only [ipvsDaemonParseCb, entryAttrs]
  rw [access_outcome]
  cases hparse : nl.nlaParse ipvsCmdAttrMax ipvsCmdPolicy msg with
  | none =>
    refine iff_of_false (fun h => by cases h) ?_
    simp
  | some attrs =>
  simp only [Option.bind_eq_bind, Option.bind_some, Option.mem_some, exists_eq_left']
  cases hnla : attrs ipvsCmdAttrDaemon with
  | none =>
    simp only [Option.bind_none, Option.not_mem_none, false_and, exists_false, and_false,
      false_or, and_true]
    constructor
    · intro h
      cases h
      rfl
    · intro h
      rw [h]
      rfl
  | some nla =>
  simp only [Option.bind_some, reduceCtorEq, and_false, or_false]
  cases hinner : nl.nlaParse ipvsDaemonAttrMax ipvsDaemonPolicy nla with
  | none => exact iff_of_false (fun h => by cases h) (by simp)
  | some inner =>
    simp only [Option.mem_some, exists_eq_left']
    rw [← daemonEntry_past _ hinner fault]
    refine ofRead_outcome _ _ _ fun entry _ => ?_
    cases entry with
    | none => exact fun h => by cases h
    | some dm => exact fun h => by cases h

theorem timeoutParseCb_never (block : Nat) (msg : Bytes) (u : Timeouts) (fault : Fault) :
    ((ipvsTimeoutParseCb nl block msg u v).run env s).outcome ≠ .error fault := by
  simp only [ipvsTimeoutParseCb]
  cases hparse : nl.nlaParse ipvsCmdAttrMax ipvsCmdPolicy msg with
  | none => exact fun h => by cases h
  | some attrs =>
    obtain ⟨u', hu'⟩ := (@timeoutEntry_past nl attrs u).total id
    simp only
    rw [access_outcome]
    simp only [hu']
    exact fun h => by cases h

/-- Exactly the messages for which an attribute is too short, or for a daemon absent, make a callback
    read what is not there. -/
theorem callbacks_overread {S : Type} (nl : Libnl) (env : Env NlCall NlCall.Answer S) (s : S)
    (v : Statics) (msg : Bytes) (fault : ReadFault) :
    (∀ get : GetServices,
      ((ipvsServicesParseCb nl msg (some get) v).run env s).outcome = .error (.read fault) ↔
        fault = .readPastPayload ∧ get.full = false ∧ ∃ attrs ∈ entryAttrs nl ipvsCmdAttrService
          ipvsSvcAttrMax ipvsServicePolicy msg, ServiceOverread attrs) ∧
    (∀ d : GetDests,
      ((ipvsDestsParseCb nl msg (some d) v).run env s).outcome = .error (.read fault) ↔
        fault = .readPastPayload ∧ d.full = false ∧ ∃ attrs ∈ entryAttrs nl ipvsCmdAttrDest
          ipvsDestAttrMax ipvsDestPolicy msg, DestOverread attrs) ∧
    (∀ block u, ((ipvsDaemonParseCb nl block msg u v).run env s).outcome = .error (.read fault) ↔
      (fault = .readPastPayload ∧ ∃ attrs ∈ entryAttrs nl ipvsCmdAttrDaemon ipvsDaemonAttrMax
        ipvsDaemonPolicy msg, DaemonOverread attrs) ∨
      (fault = .missingAttribute ∧ ∃ attrs ∈ nl.nlaParse ipvsCmdAttrMax ipvsCmdPolicy msg,
        attrs ipvsCmdAttrDaemon = none)) ∧
    ∀ block u, ((ipvsTimeoutParseCb nl block msg u v).run env s).outcome ≠ .error (.read fault) := by
  have hservice : ∀ (_ : GetServices) nla attrs,
      nl.nlaParse ipvsSvcAttrMax ipvsServicePolicy nla = some attrs →
        PastIff (serviceEntry nl attrs) (ServiceOverread attrs) :=
    fun _ _ _ hparse => serviceEntry_past hparse
  refine ⟨fun get => ?_, fun d => ?_, fun block u => ?_, fun block u => ?_⟩
  · exact tableParseCb_overreads hservice msg get fault
  · exact tableParseCb_overreads (fun d _ _ _ => destEntry_past d.af) msg d fault
  · exact daemonParseCb_overreads block msg u fault
  · exact timeoutParseCb_never block msg u (.read fault)

end Ipvshttpd.Libipvs
