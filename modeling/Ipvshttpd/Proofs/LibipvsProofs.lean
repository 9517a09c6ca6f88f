import Ipvshttpd.Libipvs

/-!
# Proofs: the IPVS table

A command replaces the record of one destination, if there is one, and nothing else.
-/

namespace Ipvshttpd

variable {t : Table} {sk sk' : ServiceKey} {dk dk' : DestKey}

/-! ## The table -/

@[simp] theorem Table.set_isSome (t : Table) (sk sk' : ServiceKey) (dk : DestKey) (rec : Record) :
    (t.set sk dk rec sk').isSome = (t sk').isSome := by
  unfold Table.set
  split
  · rw [Option.isSome_map]
  · rfl

@[simp] theorem Table.lookup_set_self (t : Table) (sk : ServiceKey) (dk : DestKey) (rec : Record) :
    (t.set sk dk rec).lookup sk dk = (t.lookup sk dk).map fun _ => rec := by
  unfold Table.lookup Table.set
  rw [if_pos rfl]
  cases t sk with
  | none => rfl
  | some dests => simp

theorem Table.lookup_set_ne (rec : Record) (h : (sk', dk') ≠ (sk, dk)) :
    (t.set sk dk rec).lookup sk' dk' = t.lookup sk' dk' := by
  unfold Table.lookup Table.set
  by_cases hsk : sk' = sk
  · have hdk : dk' ≠ dk := fun hdk => h (by rw [hsk, hdk])
    rw [if_pos hsk]
    cases t sk' with
    | none => rfl
    | some dests => simp [hdk]
  · rw [if_neg hsk]

/-! ## Commands -/

/-- The weight that arrives in the kernel. -/
def transmittedWeight (useNl : Bool) (weight : Int) : Int :=
  if useNl then (BitVec.ofInt 32 weight).toInt else weight

/-- The command for a destination with a weight and connection flags: it addresses the same
    destination, and the thresholds are those of the destination given. -/
theorem ipvsUpdateDest_weight (useNl : Bool) (svc : Service) (dest : Dest) (weight : Int)
    (connFlags : BitVec 32) :
    ipvsUpdateDest useNl svc { dest with weight := weight, connFlags := connFlags } =
      (ipvsUpdateDest useNl svc dest).map fun cmd =>
        { cmd with record := ⟨connFlags &&& ipVsConnFFwdMask, transmittedWeight useNl weight,
                              dest.uThreshold, dest.lThreshold⟩ } := by
  unfold ipvsUpdateDest transmittedWeight
  cases useNl with
  | true => rfl
  | false =>
    simp only [Bool.false_eq_true, if_false]
    split <;> rfl

/-- An update that succeeds has carried a command out, any other one has changed nothing. -/
theorem kernelUpdateDest_cases (useNl : Bool) (t : Table) (svc : Service) (dest : Dest) :
    (∃ cmd, ipvsUpdateDest useNl svc dest = some cmd ∧ cmd.Applicable t ∧
      kernelUpdateDest useNl t svc dest = (0, cmd.apply t)) ∨
    (kernelUpdateDest useNl t svc dest = (-1, t) ∧
      ∀ cmd, ipvsUpdateDest useNl svc dest = some cmd → ¬ cmd.Applicable t) := by
  unfold kernelUpdateDest
  cases hcmd : ipvsUpdateDest useNl svc dest with
  | none => exact Or.inr ⟨rfl, fun _ h => by cases h⟩
  | some cmd =>
    by_cases happ : cmd.Applicable t
    · exact Or.inl ⟨cmd, rfl, happ, by simp [happ]⟩
    · refine Or.inr ⟨by simp [happ], fun cmd' h => ?_⟩
      rw [← Option.some.inj h]
      exact happ

end Ipvshttpd
