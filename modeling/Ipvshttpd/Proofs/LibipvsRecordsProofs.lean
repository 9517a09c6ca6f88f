import Ipvshttpd.LibipvsRecords
import Ipvshttpd.Proofs.LibipvsMeaningProofs

/-!
# Proofs: what the kernel says about its tables

Which attributes make libipvs read past a payload, and what libipvs makes of the messages of the
kernel.
-/

namespace Ipvshttpd.Libipvs

open CLib Netlink

variable {α β : Type} {nl : Libnl} {attrs : Attrs}

/-! ## Computations that read payloads -/

/-- The computation fails exactly if `A` holds, and then because a payload is too short. -/
def PastIff (x : Read α) (A : Prop) : Prop := ∀ fault, x = .error fault ↔
  fault = .readPastPayload ∧ A

theorem PastIff.congr {x : Read α} {A B : Prop} (h : PastIff x A) (hAB : A ↔ B) : PastIff x B :=
  fun fault => (h fault).trans (and_congr_right fun _ => hAB)

theorem PastIff.ok (a : α) : PastIff (.ok a : Read α) False :=
  fun fault => ⟨fun h => (by cases h), fun h => h.2.elim⟩

theorem PastIff.total {x : Read α} {A : Prop} (h : PastIff x A) (hA : ¬ A) : ∃ a, x = .ok a := by
  cases x with
  | ok a => exact ⟨a, rfl⟩
  | error fault => exact absurd ((h fault).1 rfl).2 hA

/-- A sequence fails if its first part does, or else its second part. -/
theorem PastIff.bind {x : Read α} {f : α → Read β} {A B : Prop} (hx : PastIff x A)
    (hf : ∀ a, x = .ok a → PastIff (f a) B) : PastIff (x >>= f) (A ∨ B) := by
  intro fault
  by_cases hA : A
  · rw [(hx .readPastPayload).2 ⟨rfl, hA⟩]
    constructor
    · intro h
      cases h
      exact ⟨rfl, Or.inl hA⟩
    · rintro ⟨rfl, -⟩
      rfl
  · obtain ⟨a, ha⟩ := hx.total hA
    have h := hf a ha fault
    rw [ha]
    exact h.trans (and_congr_right fun _ => (or_iff_right hA).symm)

/-- A first part that never fails. -/
theorem PastIff.skip {x : Read α} {f : α → Read β} {B : Prop} (hx : PastIff x False)
    (hf : ∀ a, x = .ok a → PastIff (f a) B) : PastIff (x >>= f) B :=
  (hx.bind hf).congr (or_iff_right id)

theorem PastIff.map {x : Read α} {A : Prop} (f : α → β) (hx : PastIff x A) :
    PastIff (x.map f) A := by
  intro fault
  rw [← hx fault]
  cases x with
  | ok a => exact ⟨fun h => (by cases h), fun h => by cases h⟩
  | error fault' => exact ⟨fun h => (by cases h; rfl), fun h => by cases h; rfl⟩

/-! ## Attributes -/

section Attributes

variable {maxtype : Nat} {policy : Nat → NlaPolicy} {bytes : Bytes}

theorem shorterThan_some {n : Nat} {payload : Bytes} :
    ShorterThan n (some payload) ↔ payload.length < n := by
  simp [ShorterThan]

/-- A number is read off any attribute that is there. -/
theorem PastIff.nlaGet (n : Nat) {a : Option Bytes} (h : a.isSome) :
    PastIff (nlaGet nl n a) False := by
  obtain ⟨payload, rfl⟩ := Option.isSome_iff_exists.1 h
  exact .ok _

theorem PastIff.u16 {a : Option Bytes} (h : a.isSome) : PastIff (nlaGetU16 nl a) False :=
  (PastIff.nlaGet 2 h).map _

theorem PastIff.u32 {a : Option Bytes} (h : a.isSome) : PastIff (nlaGetU32 nl a) False :=
  (PastIff.nlaGet 4 h).map _

theorem PastIff.addr {a : Option Bytes} (h : a.isSome) :
    PastIff (nlaGetAddr a) (ShorterThan 16 a) := by
  obtain ⟨payload, rfl⟩ := Option.isSome_iff_exists.1 h
  intro fault
  rw [shorterThan_some]
  simp only [nlaGetAddr]
  by_cases hlen : 16 ≤ payload.length
  · rw [if_pos hlen]
    exact ⟨fun h => (by cases h), fun h => absurd h.2 (by omega)⟩
  · rw [if_neg hlen]
    exact ⟨fun h => (by cases h; exact ⟨rfl, by omega⟩), fun h => by rw [h.1]⟩

theorem PastIff.name {a : Option Bytes} (h : a.isSome) :
    PastIff (nlaGetName a) (Unterminated a) := by
  obtain ⟨payload, rfl⟩ := Option.isSome_iff_exists.1 h
  intro fault
  have hiff : Unterminated (some payload) ↔ ¬ (0 ∈ payload ∨ nameMaxlen ≤ payload.length) := by
    simp [Unterminated, not_or]
  rw [hiff]
  simp only [nlaGetName]
  by_cases hread : 0 ∈ payload ∨ nameMaxlen ≤ payload.length
  · rw [if_pos hread]
    exact ⟨fun h => (by cases h), fun h => absurd hread h.2⟩
  · rw [if_neg hread]
    exact ⟨fun h => (by cases h; exact ⟨rfl, hread⟩), fun h => by rw [h.1]⟩

/-- The policy for strings demands a NUL. -/
theorem PastIff.string (hparse : nl.nlaParse maxtype policy bytes = some attrs) {type : Nat}
    (h : (attrs type).isSome) (hstring : (policy type).type = .string) :
    PastIff (nlaGetName (attrs type)) False := by
  refine (PastIff.name h).congr (iff_false_intro ?_)
  rintro ⟨payload, hpayload, hzero, -⟩
  have haccepts := (nl.parse_accepts _ _ _ _ _ _ hparse hpayload).2
  exact hzero (List.mem_of_getLast? (haccepts.2.2 hstring))

end Attributes

/-! ## Statistics -/

theorem parseStats_past (n : Nat) (nla : Bytes) : PastIff (parseStats n nl nla) False := by
  unfold parseStats
  cases nl.nlaParse ipvsStatsAttrMax ipvsStatsPolicy nla with
  | none => exact PastIff.ok _
  | some attrs =>
    simp only
    by_cases hall : ∀ type ∈ statsAttrs, (attrs type).isSome
    · rw [if_pos hall]
      have hget : ∀ n type, type ∈ statsAttrs → PastIff (nlaGet nl n (attrs type)) False :=
        fun n type htype => .nlaGet n (hall type htype)
      exact (hget n ipvsStatsAttrConns (by decide)).skip fun conns _ =>
        (hget n ipvsStatsAttrInpkts (by decide)).skip fun inpkts _ =>
        (hget n ipvsStatsAttrOutpkts (by decide)).skip fun outpkts _ =>
        (hget 8 ipvsStatsAttrInbytes (by decide)).skip fun inbytes _ =>
        (hget 8 ipvsStatsAttrOutbytes (by decide)).skip fun outbytes _ =>
        (hget n ipvsStatsAttrCps (by decide)).skip fun cps _ =>
        (hget n ipvsStatsAttrInpps (by decide)).skip fun inpps _ =>
        (hget n ipvsStatsAttrOutpps (by decide)).skip fun outpps _ =>
        (hget n ipvsStatsAttrInbps (by decide)).skip fun inbps _ =>
        (hget n ipvsStatsAttrOutbps (by decide)).skip fun outbps _ => PastIff.ok _
    · rw [if_neg hall]
      exact PastIff.ok _

theorem entryStats_past {parse64 : Libnl → Bytes → Read (Option Stats64)}
    (h64 : ∀ nla, PastIff (parse64 nl nla) False) (stats64 stats : Option Bytes) :
    PastIff (entryStats nl parse64 stats64 stats) False := by
  unfold entryStats
  cases stats64 with
  | some nla => exact h64 nla
  | none =>
    cases stats with
    | some nla => exact parseStats_past 4 nla
    | none => exact PastIff.ok _

/-! ## Entries -/

theorem serviceEntryKey_past (entry : ServiceEntry) (hhas : HasServiceAttrs attrs) :
    PastIff (serviceEntryKey nl attrs entry)
      (attrs ipvsSvcAttrFwmark = none ∧ ShorterThan 16 (attrs ipvsSvcAttrAddr)) := by
  unfold serviceEntryKey
  by_cases hmark : (attrs ipvsSvcAttrFwmark).isSome
  · rw [if_pos hmark]
    have hnone : ¬ (attrs ipvsSvcAttrFwmark = none ∧ ShorterThan 16 (attrs ipvsSvcAttrAddr)) := by
      rintro ⟨h, -⟩
      rw [h] at hmark
      cases hmark
    exact ((PastIff.u32 hmark).skip fun _ _ => .ok _).congr (iff_of_false id hnone)
  · rw [if_neg hmark]
    obtain ⟨hprotocol, haddr, hport⟩ := hhas.2.1.resolve_left hmark
    have hchain := (@PastIff.u16 nl _ hprotocol).skip fun protocol _ =>
      (PastIff.addr haddr).bind fun addr _ =>
      (@PastIff.u16 nl _ hport).skip fun port _ =>
      PastIff.ok ({ entry with protocol := protocol, addr := addr, port := port } : ServiceEntry)
    have hnone := Option.not_isSome_iff_eq_none.1 hmark
    exact hchain.congr (or_iff_left id |>.trans (and_iff_right hnone).symm)

theorem serviceEntryPe_past (entry : ServiceEntry) :
    PastIff (serviceEntryPe attrs entry) (Unterminated (attrs ipvsSvcAttrPeName)) := by
  unfold serviceEntryPe
  by_cases hpe : (attrs ipvsSvcAttrPeName).isSome
  · rw [if_pos hpe]
    exact ((PastIff.name hpe).bind fun _ _ => .ok _).congr (or_iff_left id)
  · rw [if_neg hpe, Option.not_isSome_iff_eq_none.1 hpe]
    exact (PastIff.ok _).congr (by simp [Unterminated])

/-- Exactly the attributes of `ServiceOverread` make the callback for services read past a payload. -/
theorem serviceEntry_past {nla : Bytes}
    (hparse : nl.nlaParse ipvsSvcAttrMax ipvsServicePolicy nla = some attrs) :
    PastIff (serviceEntry nl attrs) (ServiceOverread attrs) := by
  unfold serviceEntry
  by_cases hhas : HasServiceAttrs attrs
  · rw [if_pos hhas]
    obtain ⟨haf, -, hsched, hnetmask, htimeout, hflags⟩ := id hhas
    refine PastIff.congr ((PastIff.u16 haf).skip fun af _ =>
      (serviceEntryKey_past _ hhas).bind fun entry _ =>
      (PastIff.string hparse hsched (by decide)).skip fun schedName _ =>
      (serviceEntryPe_past _).bind fun entry _ =>
      (PastIff.u32 hnetmask).skip fun netmask _ =>
      (PastIff.u32 htimeout).skip fun timeout _ =>
      (PastIff.nlaGet 8 hflags).skip fun flags _ =>
      (entryStats_past (parseStats_past 8) _ _).skip fun stats _ => PastIff.ok _) ?_
    rw [or_false]
    exact (and_iff_right hhas).symm
  · rw [if_neg hhas]
    exact (PastIff.ok _).congr (iff_of_false id fun h => hhas h.1)

theorem PastIff.update {a : Option Bytes} {old : α} {read : Option Bytes → Read α}
    (h : a.isSome → PastIff (read a) False) : PastIff (update a old read) False := by
  unfold Libipvs.update
  by_cases ha : a.isSome
  · rw [if_pos ha]
    exact h ha
  · rw [if_neg ha]
    exact PastIff.ok _

/-- Exactly the attributes of `DestOverread` make the callback for destinations do so. -/
theorem destEntry_past (af : BitVec 16) : PastIff (destEntry nl af attrs) (DestOverread attrs) := by
  unfold destEntry
  by_cases hhas : HasDestAttrs attrs
  · rw [if_pos hhas]
    have hsome : ∀ type ∈ [ipvsDestAttrAddr, ipvsDestAttrPort, ipvsDestAttrFwdMethod,
        ipvsDestAttrWeight, ipvsDestAttrUThresh, ipvsDestAttrLThresh, ipvsDestAttrActiveConns,
        ipvsDestAttrInactConns, ipvsDestAttrPersistConns], (attrs type).isSome := hhas
    refine PastIff.congr ((PastIff.addr (hsome _ (by decide))).bind fun addr _ =>
      (PastIff.u16 (hsome _ (by decide))).skip fun port _ =>
      (PastIff.u32 (hsome _ (by decide))).skip fun connFlags _ =>
      (PastIff.u32 (hsome _ (by decide))).skip fun weight _ =>
      (PastIff.u32 (hsome _ (by decide))).skip fun uThreshold _ =>
      (PastIff.u32 (hsome _ (by decide))).skip fun lThreshold _ =>
      (PastIff.u32 (hsome _ (by decide))).skip fun activeconns _ =>
      (PastIff.u32 (hsome _ (by decide))).skip fun inactconns _ =>
      (PastIff.u32 (hsome _ (by decide))).skip fun persistconns _ =>
      (PastIff.update .u16).skip fun af _ =>
      (entryStats_past (parseStats_past 4) _ _).skip fun stats _ => PastIff.ok _) ?_
    rw [or_false]
    exact (and_iff_right hhas).symm
  · rw [if_neg hhas]
    exact (PastIff.ok _).congr (iff_of_false id fun h => hhas h.1)

theorem daemonGroup_past (dm : DaemonUser) : PastIff (daemonGroup nl attrs dm)
    (attrs ipvsDaemonAttrMcastGroup = none ∧ ShorterThan 16 (attrs ipvsDaemonAttrMcastGroup6)) := by
  unfold daemonGroup
  by_cases hgroup : (attrs ipvsDaemonAttrMcastGroup).isSome
  · rw [if_pos hgroup]
    refine PastIff.congr ((PastIff.u32 hgroup).skip fun _ _ => .ok _) (iff_of_false id ?_)
    rintro ⟨h, -⟩
    rw [h] at hgroup
    cases hgroup
  · rw [if_neg hgroup]
    have hnone := Option.not_isSome_iff_eq_none.1 hgroup
    by_cases hgroup6 : (attrs ipvsDaemonAttrMcastGroup6).isSome
    · rw [if_pos hgroup6]
      refine PastIff.congr ((PastIff.addr hgroup6).bind fun _ _ => .ok _) ?_
      rw [or_false]
      exact (and_iff_right hnone).symm
    · rw [if_neg hgroup6, Option.not_isSome_iff_eq_none.1 hgroup6]
      exact (PastIff.ok _).congr (by simp [ShorterThan])

/-- Exactly the attributes of `DaemonOverread` make the callback for daemons do so. -/
theorem daemonEntry_past {nla : Bytes} (dm : DaemonUser)
    (hparse : nl.nlaParse ipvsDaemonAttrMax ipvsDaemonPolicy nla = some attrs) :
    PastIff (daemonEntry nl attrs dm) (DaemonOverread attrs) := by
  unfold daemonEntry
  by_cases hhas : HasDaemonAttrs attrs
  · rw [if_pos hhas]
    obtain ⟨hstate, hifn, hsyncid⟩ := id hhas
    refine PastIff.congr ((PastIff.u32 hstate).skip fun state _ =>
      (PastIff.string hparse hifn (by decide)).skip fun mcastIfn _ =>
      (PastIff.u32 hsyncid).skip fun syncid _ =>
      (PastIff.update fun h => (PastIff.u16 h).skip fun _ _ => .ok _).skip fun syncMaxlen _ =>
      (PastIff.update .u16).skip fun mcastPort _ =>
      (PastIff.update fun h => (PastIff.nlaGet 1 h).skip fun _ _ => .ok _).skip fun mcastTtl _ =>
      (daemonGroup_past _).bind fun dm _ => PastIff.ok _) ?_
    rw [or_false]
    exact (and_iff_right hhas).symm
  · rw [if_neg hhas]
    exact (PastIff.ok _).congr (iff_of_false id fun h => hhas h.1)

/-- The callback for timeouts never does so. -/
theorem timeoutEntry_past (u : Timeouts) : PastIff (timeoutEntry nl attrs u) False := by
  unfold timeoutEntry
  exact (PastIff.update .u32).skip fun _ _ => (PastIff.update .u32).skip fun _ _ =>
    (PastIff.update .u32).skip fun _ _ => .ok _

end Ipvshttpd.Libipvs
