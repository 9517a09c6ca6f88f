import Ipvshttpd.IpvsLifetime
import Ipvshttpd.Proofs.LibipvsClientProofs

/-!
# Proofs: the life of the object `ipvs`

What libipvs leaves at every exit of `init`, and after the destructor.
-/

namespace Ipvshttpd

open CLib Resumption Libipvs Libipvs.Lib

variable {α : Type} {nl : Netlink.Libnl} {host : List HostEvent} {q : NlHeap} {v : Statics}

/-! ## Texts of errors -/

theorem find?_of_pairwise {β : Type} {p : β → Bool} {l : List β} {a : β}
    (h : l.Pairwise fun b b' => ¬ (p b = true ∧ p b' = true)) (ha : a ∈ l) (hp : p a = true) :
    l.find? p = some a := by
  induction h with
  | nil => cases ha
  | @cons b l hb _ ih =>
    rw [List.find?_cons]
    rcases List.mem_cons.1 ha with rfl | hmem
    · rw [hp]
    · cases hpb : p b with
      | true => exact absurd ⟨hpb, hp⟩ (hb a hmem)
      | false => exact ih hmem

/-- No row is for an error and a function that another row is for too. -/
theorem errorTable_apart : errorTable.Pairwise fun row row' =>
    row.2.1 = row'.2.1 → row.1 ≠ none ∧ row'.1 ≠ none ∧ row.1 ≠ row'.1 := by
  decide

/-- Each row gives the text for its error and its function, so that their order does not matter. -/
theorem ipvsStrerror_row (strerror : Int → Str) (func : Option IpvsFunc)
    {row : Option IpvsFunc × Int × String} (h : row ∈ errorTable)
    (hfunc : row.1 = none ∨ row.1 = func) : ipvsStrerror strerror func row.2.1 = lit row.2.2 := by
  have hfind : errorTable.find? (fun r => (r.1 = none ∨ r.1 = func) ∧ r.2.1 = row.2.1) =
      some row := by
    refine find?_of_pairwise (errorTable_apart.imp fun {r r'} hrow => ?_) h (by simpa using hfunc)
    simp only [decide_eq_true_eq]
    rintro ⟨⟨hr, heq⟩, hr', heq'⟩
    obtain ⟨hnone, hnone', hne⟩ := hrow (heq.trans heq'.symm)
    exact hne ((hr.resolve_left hnone).trans (hr'.resolve_left hnone').symm)
  rw [ipvsStrerror, hfind]

/-! ## Initialization -/

/-- Nothing is allocated and nothing has been sent; the descriptors are `fds`. -/
structure Idle (nl : Netlink.Libnl) (q : NlHeap) (fds : List Nat) : Prop where
  msgs : q.msgs = []
  socks : q.socks = []
  blocks : q.blocks = []
  orphans : q.orphans = []
  told : q.told nl = ([], [])
  fds : q.fds = fds

theorem Idle.init {q' : NlHeap} {v' : Statics} {r : Int} {fds : List Nat} (h : Idle nl q fds)
    (hpost : InitPost nl q q' v' r) : Idle nl q' (v'.openFd ++ fds) :=
  ⟨hpost.msgs.trans h.msgs, hpost.socks.trans h.socks, hpost.blocks.blocks.trans h.blocks,
    hpost.blocks.orphans.trans h.orphans, hpost.requests.told.trans h.told, by rw [hpost.openFd, h.fds]⟩

end Ipvshttpd
