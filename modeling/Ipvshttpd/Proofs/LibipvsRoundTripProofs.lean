import Ipvshttpd.LibipvsRecords
import Ipvshttpd.Proofs.LibipvsMeaningProofs

/-!
# Proofs: what libipvs makes of the messages of the kernel

The kernel describes a service, a destination, the timeouts and a daemon by the attributes that
libipvs uses for them too, and libipvs reads back what has been described.
-/

namespace Ipvshttpd.Libipvs

open CLib Netlink

variable {nl : Libnl}

/-! ## Values -/

theorem read_ok_bind {α β : Type} (a : α) (f : α → Read β) : (Except.ok a : Read α) >>= f = f a :=
  rfl

/-- The lowest bytes of a number are at the start of its payload. -/
theorem take_leBytes {m n : Nat} (h : m ≤ n) (x : Nat) : (leBytes n x).take m = leBytes m x := by
  induction m generalizing n x with
  | zero => rfl
  | succ m ih =>
    obtain ⟨n, rfl⟩ : ∃ n', n = n' + 1 := ⟨n - 1, by omega⟩
    simp only [leBytes, List.take_succ_cons, ih (by omega : m ≤ n)]

theorem nlaGet_le {m n : Nat} (h : m ≤ n) (x : Nat) :
    nlaGet nl m (some (leBytes n x)) = .ok (x % 256 ^ m) := by
  have hlen : m ≤ (leBytes n x).length := by rw [length_leBytes]; exact h
  simp only [nlaGet, nl.nlaGet_eq m _ hlen, take_leBytes h, ofLeBytes_leBytes]

theorem nlaGetU16_le (x : BitVec 16) : nlaGetU16 nl (some (leBytes 2 x.toNat)) = .ok x := by
  have hx := x.isLt
  simp only [nlaGetU16, nlaGet_le (Nat.le_refl 2), Except.map, Except.ok.injEq]
  apply BitVec.eq_of_toNat_eq
  rw [BitVec.toNat_ofNat]
  omega

theorem nlaGetU32_le (x : BitVec 32) : nlaGetU32 nl (some (leBytes 4 x.toNat)) = .ok x := by
  have hx := x.isLt
  simp only [nlaGetU32, nlaGet_le (Nat.le_refl 4), Except.map, Except.ok.injEq]
  apply BitVec.eq_of_toNat_eq
  rw [BitVec.toNat_ofNat]
  omega

theorem nlaGetAddr_addrBytes (addr : NfInetAddr) :
    nlaGetAddr (some (addrBytes addr)) = .ok addr := by
  have hread := Option.some.inj (readAddr_addrBytes addr)
  simp only [nlaGetAddr, length_addrBytes, Nat.le_refl, if_true]
  exact congrArg Except.ok hread

/-- A name that fits its array is copied with its NUL. -/
theorem nlaGetName_snoc {s : Str} (h : FitsName s) : nlaGetName (some (s ++ [0])) = .ok s := by
  have hmem : (0 : UInt8) ∈ s ++ [0] := List.mem_append_right _ (List.mem_singleton_self _)
  have htake : s.take nameMaxlen = s := List.take_of_length_le (Nat.le_of_lt h.1)
  simp only [nlaGetName, hmem, true_or, if_true, cStr_snoc h.2, htake]

/-! ## Counters -/

theorem counterAttrs_passes {n : Nat} (hn : n = 4 ∨ n = 8) (s : Stats64) :
    ∀ a ∈ counterAttrs n s, Passes ipvsStatsAttrMax ipvsStatsPolicy a := by
  rcases hn with rfl | rfl <;>
    simp [counterAttrs, Passes, ipvsStatsPolicy, policyOf, NlaPolicy.Accepts, NlaPolicy.shortest,
      NlaPolicy.ofType, NlaType.minlen, Attr.ofU64]

theorem counterAttrs_short {n : Nat} (hn : n = 4 ∨ n = 8) (s : Stats64) :
    ∀ a ∈ counterAttrs n s, a.type < 2 ^ 14 ∧ a.payload.length ≤ 16 := by
  rcases hn with rfl | rfl <;> simp [counterAttrs, Attr.ofU64]

/-- The counters, those that do not count bytes reduced to `n` bytes. -/
def Stats64.cut (n : Nat) (s : Stats64) : Stats64 :=
  let cut (x : BitVec 64) : BitVec 64 := BitVec.ofNat 64 (x.toNat % 256 ^ n)
  ⟨cut s.conns, cut s.inpkts, cut s.outpkts, s.inbytes, s.outbytes, cut s.cps, cut s.inpps,
    cut s.outpps, cut s.inbps, cut s.outbps⟩

theorem Stats64.cut_four (s : Stats64) : s.cut 4 = s.low := by
  have hcut : ∀ x : BitVec 64, BitVec.ofNat 64 (x.toNat % 256 ^ 4) = (x.setWidth 32).setWidth 64 :=
    fun x => BitVec.eq_of_toNat_eq (by simp)
  simp only [Stats64.cut, Stats64.low, hcut]

theorem Stats64.cut_eight (s : Stats64) : s.cut 8 = s := by
  have hcut : ∀ x : BitVec 64, BitVec.ofNat 64 (x.toNat % 256 ^ 8) = x :=
    fun x => BitVec.eq_of_toNat_eq (by simpa using x.isLt)
  simp only [Stats64.cut, hcut]

/-- The counters by their types. -/
structure CounterTable (n : Nat) (s : Stats64) (attrs : Attrs) : Prop where
  conns : attrs ipvsStatsAttrConns = some (leBytes n s.conns.toNat)
  inpkts : attrs ipvsStatsAttrInpkts = some (leBytes n s.inpkts.toNat)
  outpkts : attrs ipvsStatsAttrOutpkts = some (leBytes n s.outpkts.toNat)
  inbytes : attrs ipvsStatsAttrInbytes = some (leBytes 8 s.inbytes.toNat)
  outbytes : attrs ipvsStatsAttrOutbytes = some (leBytes 8 s.outbytes.toNat)
  cps : attrs ipvsStatsAttrCps = some (leBytes n s.cps.toNat)
  inpps : attrs ipvsStatsAttrInpps = some (leBytes n s.inpps.toNat)
  outpps : attrs ipvsStatsAttrOutpps = some (leBytes n s.outpps.toNat)
  inbps : attrs ipvsStatsAttrInbps = some (leBytes n s.inbps.toNat)
  outbps : attrs ipvsStatsAttrOutbps = some (leBytes n s.outbps.toNat)

theorem counterTable (n : Nat) (s : Stats64) :
    CounterTable n s (attrTable ipvsStatsAttrMax (counterAttrs n s)) := by
  constructor <;> simp [attrTable, counterAttrs, Attr.ofU64]

/-- Reading fewer bytes than there are gives the lowest ones. -/
theorem parseStats_counterAttrs {m n : Nat} (hn : n = 4 ∨ n = 8) (hm : m ≤ n) (s : Stats64) :
    parseStats m nl (nl.stream (counterAttrs n s)) = .ok (some (s.cut m)) := by
  have hparse := nl.parse_stream ipvsStatsAttrMax ipvsStatsPolicy (counterAttrs n s)
    (fits_of_short (counterAttrs_short hn s)) (counterAttrs_passes hn s)
  obtain ⟨hconns, hinpkts, houtpkts, hinbytes, houtbytes, hcps, hinpps, houtpps, hinbps, houtbps⟩ :=
    counterTable n s
  have hall : ∀ type ∈ statsAttrs,
      (attrTable ipvsStatsAttrMax (counterAttrs n s) type).isSome := by
    simp [statsAttrs, attrTable, counterAttrs, Attr.ofU64]
  have hbytes : ∀ x : BitVec 64, ((x.toNat % 256 ^ 8 : Nat) : BitVec 64) = x :=
    fun x => BitVec.eq_of_toNat_eq (by simpa using x.isLt)
  simp only [parseStats, hparse, if_pos hall, hconns, hinpkts, houtpkts, hinbytes, houtbytes, hcps,
    hinpps, houtpps, hinbps, houtbps, nlaGet_le hm, nlaGet_le (Nat.le_refl 8)]
  show Except.ok (some _) = _
  rw [hbytes, hbytes]
  rfl

/-! ## Services -/

theorem counterAttrs_length {n : Nat} (hn : n = 4 ∨ n = 8) (s : Stats64) :
    (nl.stream (counterAttrs n s)).length ≤ 230 := by
  have hlen : (counterAttrs n s).length ≤ 10 := Nat.le_refl _
  have hle := stream_length_le nl hlen fun a ha => (counterAttrs_short hn s a ha).2
  omega

/-- The counters do not hide other attributes. -/
theorem serviceInfo_table (svc : ServiceUser) (s : Stats64) :
    ServiceTable svc (attrTable ipvsSvcAttrMax (serviceInfo nl svc s)) ∧
      attrTable ipvsSvcAttrMax (serviceInfo nl svc s) ipvsSvcAttrStats64 =
        some (nl.stream (counterAttrs 8 s)) := by
  refine ⟨?_, by simp [attrTable, serviceInfo]⟩
  have hsame : ∀ type, type ≠ ipvsSvcAttrStats → type ≠ ipvsSvcAttrStats64 →
      attrTable ipvsSvcAttrMax (serviceInfo nl svc s) type =
        attrTable ipvsSvcAttrMax (serviceAttrs svc) type := by
    intro type h h64
    simp only [attrTable, serviceInfo, lastOf_append, lastOf_cons, lastOf_nil, Option.none_or,
      if_neg (Ne.symm h), if_neg (Ne.symm h64)]
  obtain ⟨h1, h2, h3, h4, h5, h6, h7, h8, h9, h10⟩ := serviceTable svc
  exact ⟨(hsame _ (by decide) (by decide)).trans h1, (hsame _ (by decide) (by decide)).trans h2,
    (hsame _ (by decide) (by decide)).trans h3, (hsame _ (by decide) (by decide)).trans h4,
    (hsame _ (by decide) (by decide)).trans h5, (hsame _ (by decide) (by decide)).trans h6,
    (hsame _ (by decide) (by decide)).trans h7, (hsame _ (by decide) (by decide)).trans h8,
    (hsame _ (by decide) (by decide)).trans h9, (hsame _ (by decide) (by decide)).trans h10⟩

theorem parse_serviceInfo (svc : ServiceUser) (s : Stats64) :
    nl.nlaParse ipvsSvcAttrMax ipvsServicePolicy (nl.stream (serviceInfo nl svc s)) =
      some (attrTable ipvsSvcAttrMax (serviceInfo nl svc s)) := by
  have h4 := @counterAttrs_length nl 4 (Or.inl rfl) s
  have h8 := @counterAttrs_length nl 8 (Or.inr rfl) s
  refine nl.parse_stream _ _ _ ?_ ?_
  · simp only [serviceInfo, List.forall_mem_append, List.forall_mem_cons]
    refine ⟨fits_of_short (serviceAttrs_short svc), ⟨by simp, ?_⟩, ⟨by simp, ?_⟩, by simp⟩
    · show (nl.stream (counterAttrs 4 s)).length + 4 < 2 ^ 16
      omega
    · show (nl.stream (counterAttrs 8 s)).length + 4 < 2 ^ 16
      omega
  · simp only [serviceInfo, List.forall_mem_append, List.forall_mem_cons]
    refine ⟨serviceAttrs_passes svc, ?_, ?_, by simp⟩ <;>
      simp [Passes, ipvsServicePolicy, policyOf, NlaPolicy.Accepts, NlaPolicy.shortest,
        NlaPolicy.ofType, NlaPolicy.unset, NlaType.minlen]

/-- The flags under their mask. -/
theorem flags_back (flags : BitVec 32) : ∃ x, nlaGet nl 8 (some (flagsBytes flags flagsMask)) = .ok x ∧
    BitVec.ofNat 32 x &&& BitVec.ofNat 32 (x / 2 ^ 32) = flags := by
  have hlen : (flagsBytes flags flagsMask).length = 8 := by simp [flagsBytes]
  have htake : (flagsBytes flags flagsMask).take 8 = flagsBytes flags flagsMask :=
    List.take_of_length_le (by rw [hlen])
  have hflags := flags.isLt
  have hmask : flagsMask.toNat = 2 ^ 32 - 1 := by simp [flagsMask]
  have hvalue : ofLeBytes (flagsBytes flags flagsMask) =
      flags.toNat + 2 ^ 32 * flagsMask.toNat := by
    simp only [flagsBytes, ofLeBytes_append, ofLeBytes_leBytes, length_leBytes, hmask]
    omega
  refine ⟨flags.toNat + 2 ^ 32 * flagsMask.toNat, ?_, ?_⟩
  · rw [nlaGet, nl.nlaGet_eq 8 _ hlen.ge, htake, hvalue]
  · have hlow : BitVec.ofNat 32 (flags.toNat + 2 ^ 32 * flagsMask.toNat) = flags := by
      apply BitVec.eq_of_toNat_eq
      rw [BitVec.toNat_ofNat]
      omega
    have hhigh : (flags.toNat + 2 ^ 32 * flagsMask.toNat) / 2 ^ 32 = flagsMask.toNat := by omega
    rw [hlow, hhigh, BitVec.ofNat_toNat, BitVec.setWidth_eq]
    exact BitVec.and_allOnes

theorem serviceEntryKey_eq {svc : ServiceUser} {attrs : Attrs} (h : ServiceTable svc attrs)
    (entry : ServiceEntry) : serviceEntryKey nl attrs entry =
      .ok (if svc.fwmark ≠ 0 then { entry with fwmark := svc.fwmark }
        else { entry with protocol := svc.protocol, addr := svc.addr, port := svc.port }) := by
  have hfwmark := h.fwmark
  have hprotocol := h.protocol
  have haddr := h.addr
  have hport := h.port
  by_cases hmark : svc.fwmark ≠ 0
  · rw [if_pos hmark] at hfwmark
    simp only [serviceEntryKey, hfwmark, Option.isSome_some, if_true, nlaGetU32_le, if_pos hmark]
    rfl
  · rw [if_neg hmark] at hfwmark hprotocol haddr hport
    simp only [serviceEntryKey, hfwmark, Option.isSome_none, Bool.false_eq_true, if_false, hprotocol,
      haddr, hport, nlaGetU16_le, nlaGetAddr_addrBytes, if_neg hmark]
    rfl

theorem serviceEntryPe_eq {svc : ServiceUser} {attrs : Attrs} (h : ServiceTable svc attrs)
    (entry : ServiceEntry) (hentry : entry.peName = []) :
    serviceEntryPe attrs entry = .ok { entry with peName := svc.peName } := by
  have hpeName := h.peName
  by_cases hpe : svc.peName ≠ []
  · rw [if_pos hpe] at hpeName
    simp only [serviceEntryPe, hpeName, Option.isSome_some, if_true, nlaGetName_snoc svc.peFits]
    rfl
  · rw [if_neg hpe] at hpeName
    simp only [serviceEntryPe, hpeName, Option.isSome_none, Bool.false_eq_true, if_false]
    rw [not_not.1 hpe, ← hentry]
    rfl

theorem hasServiceAttrs {svc : ServiceUser} {attrs : Attrs} (h : ServiceTable svc attrs) :
    HasServiceAttrs attrs := by
  have hkey : (attrs ipvsSvcAttrFwmark).isSome ∨
      ((attrs ipvsSvcAttrProtocol).isSome ∧ (attrs ipvsSvcAttrAddr).isSome ∧
        (attrs ipvsSvcAttrPort).isSome) := by
    rw [h.fwmark, h.protocol, h.addr, h.port]
    by_cases hmark : svc.fwmark ≠ 0
    · rw [if_pos hmark]
      exact Or.inl rfl
    · simp only [if_neg hmark]
      exact Or.inr ⟨rfl, rfl, rfl⟩
  refine ⟨?_, hkey, ?_, ?_, ?_, ?_⟩
  · rw [h.af]; rfl
  · rw [h.schedName]; rfl
  · rw [h.netmask]; rfl
  · rw [h.timeout]; rfl
  · rw [h.flags]; rfl

theorem serviceEntry_serviceInfo (svc : ServiceUser) (s : Stats64) :
    serviceEntry nl (attrTable ipvsSvcAttrMax (serviceInfo nl svc s)) = .ok (some (svc.entry s)) := by
  obtain ⟨htable, hstats⟩ := @serviceInfo_table nl svc s
  obtain ⟨flags, hflags, hback⟩ := @flags_back nl svc.flags
  have hparse : ipvsParseStats64 nl (nl.stream (counterAttrs 8 s)) = .ok (some s) := by
    rw [← s.cut_eight]
    simpa [ipvsParseStats64, s.cut_eight] using
      @parseStats_counterAttrs nl 8 8 (Or.inr rfl) (Nat.le_refl 8) s
  rw [serviceEntry, if_pos (hasServiceAttrs htable)]
  simp only [htable.af, htable.schedName, htable.netmask, htable.timeout, htable.flags, hstats,
    nlaGetU16_le, nlaGetU32_le, nlaGetName_snoc svc.schedFits, hflags, serviceEntryKey_eq htable,
    entryStats, hparse, read_ok_bind]
  by_cases hmark : svc.fwmark ≠ 0
  · simp only [if_pos hmark]
    rw [serviceEntryPe_eq htable _ rfl]
    simp only [read_ok_bind, hback, ServiceUser.entry, if_pos hmark]
    rfl
  · simp only [if_neg hmark]
    rw [serviceEntryPe_eq htable _ rfl]
    simp only [read_ok_bind, hback, ServiceUser.entry, not_not.1 hmark]
    rfl

theorem serviceInfo_length (svc : ServiceUser) (s : Stats64) :
    (nl.stream (serviceInfo nl svc s)).length + 4 < 2 ^ 16 := by
  have h4 := @counterAttrs_length nl 4 (Or.inl rfl) s
  have h8 := @counterAttrs_length nl 8 (Or.inr rfl) s
  have hlen : (serviceInfo nl svc s).length ≤ 11 := by
    have hle := length_serviceAttrs svc
    simp only [serviceInfo, List.length_append, List.length_cons, List.length_nil]
    omega
  have hshort : ∀ a ∈ serviceInfo nl svc s, a.payload.length ≤ 230 := by
    simp only [serviceInfo, List.forall_mem_append, List.forall_mem_cons]
    refine ⟨fun a ha => ?_, h4, h8, by simp⟩
    have hle := (serviceAttrs_short svc a ha).2
    omega
  have hle := stream_length_le nl hlen hshort
  omega

/-- A message with one nested attribute. -/
theorem parse_nested {type : Nat} (htype : type = ipvsCmdAttrService ∨ type = ipvsCmdAttrDest ∨
    type = ipvsCmdAttrDaemon) {payload : Bytes} (hlen : payload.length + 4 < 2 ^ 16) :
    ∃ attrs, nl.nlaParse ipvsCmdAttrMax ipvsCmdPolicy (nl.stream [⟨type, payload⟩]) = some attrs ∧
      attrs type = some payload := by
  have hfits : ∀ a ∈ [(⟨type, payload⟩ : Attr)], a.Fits := by
    simp only [List.forall_mem_singleton]
    refine ⟨?_, hlen⟩
    rcases htype with rfl | rfl | rfl <;> simp
  have hpass : ∀ a ∈ [(⟨type, payload⟩ : Attr)], Passes ipvsCmdAttrMax ipvsCmdPolicy a :=
    List.forall_mem_singleton.2 (cmdAttr_passes type payload htype)
  refine ⟨_, nl.parse_stream _ _ _ hfits hpass, ?_⟩
  rcases htype with rfl | rfl | rfl <;> simp [attrTable]

theorem entryOf_nested {ε : Type} {type maxtype : Nat} {policy : Nat → NlaPolicy}
    {read : Attrs → Read (Option ε)} {payload : Bytes} {attrs : Attrs} {entry : ε}
    (htype : type = ipvsCmdAttrService ∨ type = ipvsCmdAttrDest ∨ type = ipvsCmdAttrDaemon)
    (hlen : payload.length + 4 < 2 ^ 16) (hparse : nl.nlaParse maxtype policy payload = some attrs)
    (hread : read attrs = .ok (some entry)) :
    entryOf nl type maxtype policy read (nl.stream [⟨type, payload⟩]) = some entry := by
  obtain ⟨outer, houter, hpayload⟩ := @parse_nested nl type htype payload hlen
  simp only [entryOf, houter, Option.bind_eq_bind, Option.bind_some, hpayload, hparse, hread]

/-- What a message of the kernel says about a service is what is read from it. -/
theorem serviceOf_serviceMessage (svc : ServiceUser) (s : Stats64) :
    serviceOf nl (serviceMessage nl svc s) = some (svc.entry s) :=
  entryOf_nested (Or.inl rfl) (serviceInfo_length svc s) (parse_serviceInfo svc s)
    (serviceEntry_serviceInfo svc s)

/-! ## Destinations -/

theorem destInfo_table (dest : Dest) (conns : Connections) (s : Stats64) :
    DestTable dest (attrTable ipvsDestAttrMax (destInfo nl dest conns s)) ∧
      attrTable ipvsDestAttrMax (destInfo nl dest conns s) ipvsDestAttrActiveConns =
        some (leBytes 4 conns.active.toNat) ∧
      attrTable ipvsDestAttrMax (destInfo nl dest conns s) ipvsDestAttrInactConns =
        some (leBytes 4 conns.inactive.toNat) ∧
      attrTable ipvsDestAttrMax (destInfo nl dest conns s) ipvsDestAttrPersistConns =
        some (leBytes 4 conns.persistent.toNat) ∧
      attrTable ipvsDestAttrMax (destInfo nl dest conns s) ipvsDestAttrStats64 =
        some (nl.stream (counterAttrs 8 s)) := by
  refine ⟨?_, ?_, ?_, ?_, ?_⟩
  · constructor <;> simp [attrTable, destInfo, destAttrs, Attr.ofU16, Attr.ofU32]
  all_goals simp [attrTable, destInfo, destAttrs, Attr.ofU16, Attr.ofU32]

theorem parse_destInfo (dest : Dest) (conns : Connections) (s : Stats64) :
    nl.nlaParse ipvsDestAttrMax ipvsDestPolicy (nl.stream (destInfo nl dest conns s)) =
      some (attrTable ipvsDestAttrMax (destInfo nl dest conns s)) := by
  have h4 := @counterAttrs_length nl 4 (Or.inl rfl) s
  have h8 := @counterAttrs_length nl 8 (Or.inr rfl) s
  refine nl.parse_stream _ _ _ ?_ ?_
  · simp only [destInfo, List.forall_mem_append, List.forall_mem_cons]
    refine ⟨destAttrs_fits dest, by simp [Attr.Fits, Attr.ofU32], by simp [Attr.Fits, Attr.ofU32],
      by simp [Attr.Fits, Attr.ofU32], ⟨by simp, ?_⟩, ⟨by simp, ?_⟩, by simp⟩
    · show (nl.stream (counterAttrs 4 s)).length + 4 < 2 ^ 16
      omega
    · show (nl.stream (counterAttrs 8 s)).length + 4 < 2 ^ 16
      omega
  · simp only [destInfo, List.forall_mem_append]
    refine ⟨destAttrs_passes dest, ?_⟩
    simp [Passes, ipvsDestPolicy, policyOf, NlaPolicy.Accepts, NlaPolicy.shortest,
      NlaPolicy.ofType, NlaPolicy.unset, NlaType.minlen, Attr.ofU32]

theorem destInfo_length (dest : Dest) (conns : Connections) (s : Stats64) :
    (nl.stream (destInfo nl dest conns s)).length + 4 < 2 ^ 16 := by
  have h4 := @counterAttrs_length nl 4 (Or.inl rfl) s
  have h8 := @counterAttrs_length nl 8 (Or.inr rfl) s
  have hlen : (destInfo nl dest conns s).length ≤ 12 := Nat.le_refl _
  have hshort : ∀ a ∈ destInfo nl dest conns s, a.payload.length ≤ 230 := by
    simp only [destInfo, destAttrs, List.forall_mem_append, List.forall_mem_cons]
    simp [Attr.ofU16, Attr.ofU32, h4, h8]
  have hle := stream_length_le nl hlen hshort
  omega

/-- The 64-bit counters of a destination are read by the parser for 32-bit counters. -/
theorem destEntry_destInfo (af : BitVec 16) (dest : Dest) (conns : Connections) (s : Stats64) :
    destEntry nl af (attrTable ipvsDestAttrMax (destInfo nl dest conns s)) =
      .ok (some (destEntryOf dest conns s.low)) := by
  obtain ⟨htable, hactive, hinact, hpersist, hstats⟩ := @destInfo_table nl dest conns s
  have hhas : HasDestAttrs (attrTable ipvsDestAttrMax (destInfo nl dest conns s)) := by
    simp only [HasDestAttrs, List.forall_mem_cons, htable.addr, htable.port, htable.fwdMethod,
      htable.weight, htable.uThreshold, htable.lThreshold, hactive, hinact, hpersist]
    simp
  have hparse : ipvsParseStats nl (nl.stream (counterAttrs 8 s)) = .ok (some s.low) := by
    rw [← s.cut_four]
    exact parseStats_counterAttrs (Or.inr rfl) (by omega) s
  rw [destEntry, if_pos hhas]
  simp only [htable.addr, htable.port, htable.fwdMethod, htable.weight, htable.uThreshold,
    htable.lThreshold, htable.af, hactive, hinact, hpersist, hstats, nlaGetAddr_addrBytes,
    nlaGetU16_le, nlaGetU32_le, update, Option.isSome_some, if_true, entryStats, hparse,
    read_ok_bind]
  rfl

/-- What a message of the kernel says about a destination is what is read from it, but for the highest
    bits of the counters. -/
theorem destOf_destMessage (af : BitVec 16) (dest : Dest) (conns : Connections) (s : Stats64) :
    destOf nl af (destMessage nl dest conns s) = some (destEntryOf dest conns s.low) :=
  entryOf_nested (Or.inr (Or.inl rfl)) (destInfo_length dest conns s) (parse_destInfo dest conns s)
    (destEntry_destInfo af dest conns s)

/-! ## Timeouts -/

theorem timeoutsAfter_timeoutMessage (u timeouts : Timeouts) :
    timeoutsAfter nl u (timeoutMessage nl timeouts) = some timeouts := by
  have hparse := nl.parse_stream ipvsCmdAttrMax ipvsCmdPolicy (timeoutAttrs timeouts)
    (by simp [timeoutAttrs, Attr.Fits, Attr.ofU32])
    (by simp [timeoutAttrs, Passes, ipvsCmdPolicy, policyOf, NlaPolicy.Accepts,
      NlaPolicy.shortest, NlaPolicy.ofType, NlaType.minlen, Attr.ofU32])
  have htcp : attrTable ipvsCmdAttrMax (timeoutAttrs timeouts) ipvsCmdAttrTimeoutTcp =
      some (leBytes 4 timeouts.tcpTimeout.toNat) := by
    simp [attrTable, timeoutAttrs, Attr.ofU32]
  have htcpFin : attrTable ipvsCmdAttrMax (timeoutAttrs timeouts) ipvsCmdAttrTimeoutTcpFin =
      some (leBytes 4 timeouts.tcpFinTimeout.toNat) := by
    simp [attrTable, timeoutAttrs, Attr.ofU32]
  have hudp : attrTable ipvsCmdAttrMax (timeoutAttrs timeouts) ipvsCmdAttrTimeoutUdp =
      some (leBytes 4 timeouts.udpTimeout.toNat) := by
    simp [attrTable, timeoutAttrs, Attr.ofU32]
  have hentry : timeoutEntry nl (attrTable ipvsCmdAttrMax (timeoutAttrs timeouts)) u =
      .ok timeouts := by
    simp only [timeoutEntry, htcp, htcpFin, hudp, update, Option.isSome_some, if_true, nlaGetU32_le,
      read_ok_bind]
    rfl
  simp only [timeoutsAfter, timeoutMessage, hparse, Option.bind_eq_bind, Option.bind_some, hentry]
  rfl

/-! ## Daemons -/

/-- A number that is left out when it is 0 is read back over a 0. -/
theorem update_unless_zero {n : Nat} {x : BitVec n} {p : Bytes} {w : Nat} {y : BitVec w}
    {read : Option Bytes → Read (BitVec w)} (hread : read (some p) = .ok y)
    (hzero : x = 0 → y = 0) :
    update (if x ≠ 0 then some p else none) 0 read = .ok y := by
  by_cases hx : x = 0
  · rw [if_neg (not_not.2 hx), hzero hx]
    rfl
  · rw [if_pos hx]
    exact hread

theorem daemonGroup_eq {dm : DaemonUser} {attrs : Attrs} (h : DaemonTable dm attrs)
    {u : DaemonUser} (hgroup : u.mcastGroup = .zero) (haf : u.mcastAf = 0) :
    daemonGroup nl attrs u = .ok { u with
      mcastAf := if dm.mcastAf = afInet6 ∨ dm.mcastAf = afInet then dm.mcastAf else 0
      mcastGroup :=
        if dm.mcastAf = afInet6 then dm.mcastGroup
        else if dm.mcastAf = afInet then { NfInetAddr.zero with w0 := dm.mcastGroup.w0 }
        else .zero } := by
  have hne : ¬ afInet6 = afInet := by decide
  rw [daemonGroup, h.group, h.group6]
  by_cases h6 : dm.mcastAf = afInet6
  · have h4 : ¬ dm.mcastAf = afInet := by rw [h6]; exact hne
    rw [if_neg h4, if_pos h6, if_pos (Or.inl h6), if_pos h6, nlaGetAddr_addrBytes, h6]
    rfl
  · rw [if_neg h6, if_neg h6]
    by_cases h4 : dm.mcastAf = afInet
    · rw [if_pos h4, if_pos (Or.inr h4), if_pos h4, nlaGetU32_le, h4, ← hgroup]
      rfl
    · rw [if_neg h4, if_neg h4, if_neg (not_or.2 ⟨h6, h4⟩), ← hgroup, ← haf]
      rfl

theorem daemonEntry_daemonAttrs {dm : DaemonArg} {attrs : Attrs}
    (h : DaemonTable dm.toDaemonUser attrs) : daemonEntry nl attrs .zero = .ok (some dm.back) := by
  have hstr := cStr_of_not_mem dm.ifnFits.2
  have hhas : HasDaemonAttrs attrs := by
    simp only [HasDaemonAttrs, h.state, h.mcastIfn, h.syncid, Option.isSome_some, and_self]
  have hmaxlen : update (attrs ipvsDaemonAttrSyncMaxlen) 0
      (fun a => do pure ((← nlaGetU16 nl a).setWidth 32)) =
        .ok ((dm.syncMaxlen.setWidth 16).setWidth 32) := by
    rw [h.syncMaxlen]
    refine update_unless_zero ?_ fun hzero => by rw [hzero]; rfl
    rw [nlaGetU16_le]
    rfl
  have hport : update (attrs ipvsDaemonAttrMcastPort) 0 (nlaGetU16 nl) = .ok dm.mcastPort := by
    rw [h.mcastPort]
    exact update_unless_zero (nlaGetU16_le _) id
  have httl : update (attrs ipvsDaemonAttrMcastTtl) 0
      (fun a => do pure (BitVec.ofNat 16 (← nlaGet nl 1 a))) =
        .ok ((dm.mcastTtl.setWidth 8).setWidth 16) := by
    rw [h.mcastTtl]
    refine update_unless_zero ?_ fun hzero => by rw [hzero]; rfl
    rw [nlaGet_le (Nat.le_refl 1)]
    exact congrArg Except.ok (BitVec.eq_of_toNat_eq (by simp))
  have hname : nlaGetName (attrs ipvsDaemonAttrMcastIfn) = .ok dm.mcastIfn := by
    rw [h.mcastIfn, hstr]
    exact nlaGetName_snoc dm.ifnFits
  rw [daemonEntry, if_pos hhas]
  simp only [h.state, h.syncid, nlaGetU32_le, hname, read_ok_bind]
  rw [show (DaemonUser.zero).syncMaxlen = 0 from rfl, show (DaemonUser.zero).mcastPort = 0 from rfl,
    show (DaemonUser.zero).mcastTtl = 0 from rfl, hmaxlen, hport, httl]
  simp only [read_ok_bind]
  rw [daemonGroup_eq h rfl rfl]
  rfl

/-- The first daemon that is described is read to the first record, and after it the second one. -/
theorem daemonsAfter_daemonMessage (u : DaemonUser × DaemonUser) (dm : DaemonArg)
    (hfresh : (if u.1.state ≠ 0 then u.2 else u.1) = .zero) :
    daemonsAfter nl u (daemonMessage nl dm) =
      some (if u.1.state ≠ 0 then (u.1, dm.back) else (dm.back, u.2)) := by
  have hlen := (@daemonAttrs_length nl dm).1
  obtain ⟨attrs, hattrs, hpayload⟩ := @parse_nested nl _ (Or.inr (Or.inr rfl)) _ hlen
  simp only [daemonsAfter, daemonMessage, hattrs, Option.bind_eq_bind, Option.bind_some, hpayload,
    parse_daemonAttrs, hfresh, daemonEntry_daemonAttrs (daemonTable dm.toDaemonUser)]
  rfl

end Ipvshttpd.Libipvs
