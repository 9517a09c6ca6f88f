import Ipvshttpd.Resumption.Proofs.InterleaveProofs
import Ipvshttpd.Proofs.LibipvsProofs
import Ipvshttpd.Proofs.ProtocolProofs

/-!
# Proofs: concurrent request handlers

The calls of the mutexes mean what they should (`callSem_respects`) and every handler follows the
protocol, so what a handler holds can be read off its own calls in every schedule
(`owner_iff_held`).
-/

namespace Ipvshttpd

open CLib Resumption Prog

variable {ι : Type} [DecidableEq ι]
variable {useNl : Bool} {jc : Jsoncpp} {libc : Libc} {config : ConfigurationManager} {t : Table}
variable {req : ι → Request} {c : Server ι}

/-! ## The calls -/

theorem callSem_respects (useNl : Bool) :
    mutexOps.Respects (callSem (ι := ι) useNl) Shared.owner where
  acquire {i e l s r s'} ha hs := by
    cases e with
    | lock m =>
      have hm : m = l := Option.some.inj ha
      obtain ⟨hfree, rfl⟩ : s.owner m = none ∧ _ := hs
      rw [← hm]
      exact ⟨hfree, rfl⟩
    | _ => cases ha
  release {i e l s r s'} ha hr hs := by
    cases e with
    | unlock m =>
      have hm : m = l := Option.some.inj hr
      have hs' : s' = { s with owner := Function.update s.owner m none } := hs
      rw [hs', ← hm]
    | lock m => cases ha
    | _ => cases hr
  other {i e s r s'} ha hr hs := by
    cases e with
    | lock m => cases ha
    | unlock m => cases hr
    | updateDest svc dest =>
      rcases hs with ⟨-, cmd, -, -, rfl⟩ | ⟨-, rfl⟩
      · rfl
      · rfl
    | _ =>
      have hs' : s' = s := hs
      rw [hs']

/-- Only taking a mutex blocks. -/
theorem callSem_live (useNl : Bool) (i : ι) (e : Call) (s : Shared ι)
    (h : ∀ m, mutexOps.acquires e = some m → s.owner m = none) :
    ∃ r s', callSem useNl i e s r s' := by
  cases e with
  | lock m => exact ⟨(), _, h m rfl, rfl⟩
  | updateDest svc dest => exact ⟨(-1 : Int), s, Or.inr ⟨(by decide : (-1 : Int) ≠ 0), rfl⟩⟩
  | gethostbyname name => exact ⟨none, s, rfl⟩
  | getservbyname name proto => exact ⟨none, s, rfl⟩
  | unlock m => exact ⟨(), _, rfl⟩
  | _ => exact ⟨(), s, rfl⟩

/-- The answers of `callAnswer` are answers that the calls may get. -/
theorem callAnswer_sem {useNl : Bool} {rs : Resolver} {i : ι} {e : Call} {s s' : Shared ι}
    {r : Call.Answer e} (h : callAnswer useNl rs i e s = some (r, s')) : callSem useNl i e s r s' := by
  cases e with
  | lock m =>
    obtain ⟨hfree, hnext⟩ := Option.ite_none_right_eq_some.1 h
    rw [Option.some.injEq, Prod.mk.injEq] at hnext
    exact ⟨hfree, hnext.2.symm⟩
  | updateDest svc dest =>
    have hr : (kernelUpdateDest useNl s.table svc dest).1 = r ∧
        { s with table := (kernelUpdateDest useNl s.table svc dest).2 } = s' := by
      rw [← Prod.mk.injEq, ← Option.some.injEq]
      exact h
    rcases kernelUpdateDest_cases useNl s.table svc dest with ⟨cmd, hcmd, happ, hk⟩ | ⟨hk, -⟩
    · rw [hk] at hr
      exact Or.inl ⟨hr.1.symm, cmd, hcmd, happ, hr.2.symm⟩
    · rw [hk] at hr
      have hneg : (-1 : Int) ≠ 0 := by decide
      refine Or.inr ⟨?_, hr.2.symm⟩
      rw [← hr.1]
      exact hneg
  | _ =>
    cases h
    rfl

/-! ## Lock discipline -/

/-- A handler that follows the protocol never takes a mutex twice and never releases one that it does
    not hold; when it has ended, it holds `ipvs_mutex` exactly if its request leaks. -/
theorem handlePostRequest_locks (jc : Jsoncpp) (libc : Libc) (config : ConfigurationManager)
    (r : Request) :
    (handlePostRequest jc libc config r.conn r.body).wp mutexOps.monitor
      (fun held _ => ∀ m, held m = true ↔ m = .ipvs ∧ r.Leaks jc config)
      (fun held _ => ∀ m, held m = true ↔ m = .ipvs ∧ r.Leaks jc config) fun _ => false := by
  have hinit : (fun m => decide (Progress.init.holding = some m)) = fun _ : Mutex => false := rfl
  rw [← hinit]
  refine wp_map (M := protocol (requestedWeight jc config r.body))
    (fun (q : Progress) m => decide (q.holding = some m)) ?_ ?_ ?_
  · intro q e hallow
    constructor
    · intro l hl
      cases e with
      | lock m =>
        have hnone : q.holding = none := hallow.1
        simp [hnone]
      | _ => cases hl
    · intro l hl
      cases e with
      | unlock m =>
        have hm : m = l := Option.some.inj hl
        have hheld : q.holding = some m := hallow.1
        simp [hheld, hm]
      | _ => cases hl
  · exact fun q e ans hallow => protocol_held hallow ans
  · refine wp_mono ?_ ?_ (handlePostRequest_protocol jc libc config r.conn r.body)
    · rintro q _ ⟨⟨hnone, -⟩, hno⟩ m
      simp [hnone, hno]
    · rintro q _ (⟨hheld, hleak⟩ | ⟨hnone, hno⟩) m
      · simp [hheld, hleak, eq_comm]
      · simp [hnone, hno]

theorem Server.Reached.owner_iff (h : c.Reached useNl jc libc config t req) (m : Mutex) (i : ι) :
    c.shared.owner m = some i ↔ mutexOps.held (localTrace i c.hist) m = true :=
  owner_iff_held (callSem_respects useNl) (fun _ => rfl)
    (fun i => handlePostRequest_locks jc libc config (req i)) h m i

/-- What an ended handler holds. -/
theorem Server.Reached.held_of_ended (h : c.Reached useNl jc libc config t req) {i : ι}
    (hend : (c.progs i).Ended) (m : Mutex) :
    c.shared.owner m = some i ↔ m = .ipvs ∧ (req i).Leaks jc config := by
  have hwp := reach_wp h (handlePostRequest_locks jc libc config (req i))
  rw [h.owner_iff]
  cases hp : c.progs i with
  | ret a =>
    rw [hp] at hwp
    exact hwp m
  | raise x =>
    rw [hp] at hwp
    exact hwp m
  | call e k =>
    rw [hp] at hend
    exact hend.elim

/-- If no request leaks, the lock discipline holds in every schedule. -/
theorem Server.Reached.lockDiscipline (h : c.Reached useNl jc libc config t req)
    (hno : ∀ i, ¬ (req i).Leaks jc config) : LockDiscipline c := by
  have hended : ∀ m i, (c.progs i).Ended → c.shared.owner m ≠ some i :=
    fun m i hend howner => hno i ((h.held_of_ended hend m).1 howner).2
  refine ⟨fun m i howner => ⟨fun hend => hended m i hend howner, (h.owner_iff m i).1 howner⟩, hended,
    fun hall m => ?_⟩
  cases howner : c.shared.owner m with
  | none => rfl
  | some i => exact absurd howner (hended m i (hall i))

/-- A request that leaks breaks the lock discipline in some schedule, for instance when its handler
    runs alone. -/
theorem exists_leak (useNl : Bool) (libc : Libc) (t : Table) (req : ι → Request) {i : ι}
    (hleak : (req i).Leaks jc config) :
    ∃ c : Server ι, c.Reached useNl jc libc config t req ∧ ¬ LockDiscipline c := by
  obtain ⟨c, hreach, hend, -⟩ := exists_solo_run (callSem_respects useNl) (callSem_live useNl) i
    (handlePostRequest_locks jc libc config (req i)) (c := serverInit jc libc config t req) rfl
    (fun _ => rfl)
  have hreached : Server.Reached useNl jc libc config t req c := hreach
  exact ⟨c, hreached, fun hd =>
    hd.ended .ipvs i hend ((hreached.held_of_ended hend .ipvs).2 ⟨rfl, hleak⟩)⟩

/-- The lock discipline holds in every schedule exactly if no request leaks. -/
theorem lockDiscipline_iff (useNl : Bool) (jc : Jsoncpp) (libc : Libc) (config : ConfigurationManager)
    (t : Table) (req : ι → Request) :
    (∀ c : Server ι, c.Reached useNl jc libc config t req → LockDiscipline c) ↔
      ∀ i, ¬ (req i).Leaks jc config := by
  constructor
  · intro hall i hleak
    obtain ⟨c, hreached, hnot⟩ := exists_leak useNl libc t req hleak
    exact hnot (hall c hreached)
  · exact fun hno c h => h.lockDiscipline hno

/-- An authenticated request whose host is an array leaves `ipvs_mutex` locked for good. -/
theorem host_array_leaks_mutex :
    ∃ c : Server Unit, Server.Reached true
      (.single (lit "\x7b\"api_key\": \"secret\", \"host\": [], \"available_kernels\": 4\x7d")
        (.object [(lit "api_key", .string (lit "secret")), (lit "host", .array []),
          (lit "available_kernels", .int 4)]))
      .empty { ConfigurationManager.new with mApiKey := lit "secret" } (fun _ => none)
      (fun _ => ⟨.sound,
        lit "\x7b\"api_key\": \"secret\", \"host\": [], \"available_kernels\": 4\x7d"⟩) c ∧
      ¬ LockDiscipline c :=
  exists_leak (i := ()) true .empty _ _ ⟨_, single_parse _ _, by decide, Or.inl rfl⟩

end Ipvshttpd
