import TunnelOperator.Controller.PeersProofs
import TunnelOperator.Controller.Reconcile

/-! What a spec that passes specProblem is known to satisfy. -/
namespace TunnelOperator.Controller
open Netip

structure CheckedSpec (wg : Wireguard) : Prop where
  peerCIDR : validatePeerCIDR (effectivePeerCIDR4 wg) = .ok ()
  probeOutsidePeers : probeAddressInPeerCIDR (effectivePeerCIDR4 wg) = .ok ()
  localCIDRs : validateLocalCIDRs wg.spec.localCIDRs = .ok ()
  apart : peerCIDROverlap (effectivePeerCIDR4 wg) wg.spec.localCIDRs = .ok ()
  probeOutsideLocal : probeAddressInLocalCIDRs wg.spec.localCIDRs = .ok ()
  env : reservedInEnv wg.spec.gluetun.env = ""

theorem problemOf_eq_none {reason : String} {check : Except String Unit} :
    problemOf reason check = none ↔ check = .ok () := by
  cases check <;> simp [problemOf]

theorem checkedSpec (passed : staticProblem wg = none) : CheckedSpec wg := by
  simp only [staticProblem, Option.or_eq_none_iff, problemOf_eq_none,
    ite_eq_left_iff, reduceCtorEq, imp_false, not_not] at passed
  obtain ⟨peer, probePeer, locals, apart, probeLocal, env⟩ := passed
  exact ⟨peer, probePeer, locals, apart, probeLocal, env⟩

theorem CheckedSpec.range (checked : CheckedSpec wg) :
    ∃ range, Ipam.Reads (effectivePeerCIDR4 wg) range :=
  validatePeerCIDR_ok checked.peerCIDR

/-- No prefix turns a key of the rendered Secret into a reserved variable. -/
theorem reservedInKeys_rendered (namePrefix : String) :
    reservedInKeys namePrefix ["state.json", "privateKey", "publicKey"] = "" := by
  have apart : ∀ k ∈ ["state.json", "privateKey", "publicKey"],
      ∀ e ∈ Resources.reservedGluetunEnv [], ¬ k.toList <:+ e.name.toList := by decide
  have none_found : (["state.json", "privateKey", "publicKey"].insertionSort
      (compare · · ≠ .gt)).find? (fun k => isReservedGluetunEnv (namePrefix ++ k)) = none := by
    apply List.find?_eq_none.mpr
    intro k member
    rw [(List.perm_insertionSort _ _).mem_iff] at member
    simp only [isReservedGluetunEnv, List.any_eq_true, decide_eq_true_eq, not_exists, not_and]
    intro e reserved named
    refine apart k member e reserved ⟨namePrefix.toList, ?_⟩
    rw [named, String.toList_append]
  rw [reservedInKeys, none_found]
  rfl

theorem firstProblem_ok {problem : Nat → String → Option String} {cidrs : List String} :
    firstProblem problem cidrs = .ok () ↔ ∀ i c, cidrs[i]? = some c → problem i c = none := by
  unfold firstProblem
  split
  · rename_i message found
    simp only [reduceCtorEq, false_iff, not_forall]
    obtain ⟨⟨c, i⟩, member, bad⟩ := List.exists_of_findSome?_eq_some found
    exact ⟨i, c, List.mk_mem_zipIdx_iff_getElem?.mp member, by simp [bad]⟩
  · rename_i none_found
    simp only [true_iff]
    intro i c here
    exact List.findSome?_eq_none_iff.mp none_found (c, i) (List.mk_mem_zipIdx_iff_getElem?.mpr here)

end TunnelOperator.Controller
