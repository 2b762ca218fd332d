/-
  The maintenance of the mux reaches every entry.
-/
import Mathlib.Logic.Function.Iterate
import Usque.PacketMux.Translate

namespace Usque.PacketMux
open List Lib PacketMuxTable

variable {t : PacketMuxTable} {now : Instant}

def longestScan (t : PacketMuxTable) : ℕ :=
  max t.flowScan.length (max t.outgoingFragmentScan.length t.incomingFragmentScan.length)

/-- `calls` calls of `maintain` with nothing in between. -/
def maintainTimes (now : Instant) (calls : ℕ) (t : PacketMuxTable) : PacketMuxTable :=
  (fun t => t.maintain now)^[calls] t

theorem Passes.calls (hc : Consistent t) (now : Instant) (calls : ℕ) :
    Passes now (calls * MAINTENANCE_ITEMS) t (maintainTimes now calls t) ∧
    Consistent (maintainTimes now calls t) := by
  induction calls with
  | zero =>
    exact ⟨Passes.start hc now, hc⟩
  | succ _ ih =>
    rw [maintainTimes, Function.iterate_succ_apply', Nat.succ_mul]
    exact ⟨ih.1.maintain ih.2, ih.2.maintain now⟩

/-- **Bounded maintenance is fair.**  With no traffic in between, `⌈n / 4096⌉` calls,
    where `n` is the length of the longest queue, remove exactly the idle mappings.  One
    call gets no further than the first 4096 keys of a queue: those after them come next,
    with the mappings they had. -/
theorem maintenance_fair (h : Reachable t) (now : Instant) :
    (∀ calls, calls = (longestScan t + 4095) / 4096 →
      (∀ k, (maintainTimes now calls t).forward.lookup k =
        (t.forward.lookup k).filter (!idle now ·.lastSeen)) ∧
      (∀ k, (maintainTimes now calls t).outgoingFragments.lookup k =
        (t.outgoingFragments.lookup k).filter (!idle now ·.lastSeen)) ∧
      ∀ k, (maintainTimes now calls t).incomingFragments.lookup k =
        (t.incomingFragments.lookup k).filter (!idle now ·.lastSeen)) ∧
    ((∃ kept, (t.maintain now).flowScan = t.flowScan.drop 4096 ++ kept) ∧
      ∀ k ∈ t.flowScan.drop 4096, (t.maintain now).forward.lookup k = t.forward.lookup k) ∧
    ((∃ kept, (t.maintain now).outgoingFragmentScan = t.outgoingFragmentScan.drop 4096 ++ kept) ∧
      ∀ k ∈ t.outgoingFragmentScan.drop 4096,
        (t.maintain now).outgoingFragments.lookup k = t.outgoingFragments.lookup k) ∧
    (∃ kept, (t.maintain now).incomingFragmentScan = t.incomingFragmentScan.drop 4096 ++ kept) ∧
      ∀ k ∈ t.incomingFragmentScan.drop 4096,
        (t.maintain now).incomingFragments.lookup k = t.incomingFragments.lookup k := by
  have hc := h.consistent
  constructor
  · intro calls hcalls
    have hall := (Passes.calls hc now calls).1
    have hn : longestScan t ≤ calls * MAINTENANCE_ITEMS := by
      rw [MAINTENANCE_ITEMS]
      omega
    obtain ⟨hflows, hfragments⟩ := max_le_iff.1 hn
    obtain ⟨houtgoing, hincoming⟩ := max_le_iff.1 hfragments
    exact ⟨hall.flows.done (drop_eq_nil_of_le hflows),
      hall.outgoing.done (drop_eq_nil_of_le houtgoing),
      hall.incoming.done (drop_eq_nil_of_le hincoming)⟩
  · have hone := (Passes.start hc now).maintain hc
    exact ⟨hone.flows.ahead, hone.outgoing.ahead, hone.incoming.ahead⟩

/-- Of two flows, the one that was idle for 399 seconds goes with one call, and the other
    stays. -/
theorem maintenance_fair_sample :
    let t := (udpSampleTable.routeOutgoing (secs 350) .proxy udpSample).1
    longestScan t = 2 ∧
      (maintainTimes (secs 400) 1 t).forward.lookup (flowKey .tunnel udpSampleTuple) = none ∧
      ((maintainTimes (secs 400) 1 t).forward.lookup (flowKey .proxy udpSampleTuple)).isSome := by
  intro t
  have hlen : longestScan t = 2 := by decide +kernel
  have hfair := ((maintenance_fair (udpSampleTable_reachable.routeOutgoing _ _ _) (secs 400)).1 1
    (by rw [hlen])).1
  refine ⟨hlen, (hfair _).trans (by decide +kernel), ?_⟩
  rw [hfair]
  decide +kernel

end Usque.PacketMux
