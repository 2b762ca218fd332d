/-
  What holds in every run of the agent.
-/
import Usque.Agent.Runs

namespace Usque.Agent
open Lib List

/-! ## Sample runs -/

def samplePlan : ValidatedTunnelPlan where
  profileId := 7
  endpoint := ⟨.v4 0xA29FC602, 443, 0, 0⟩
  endpointCandidates := [⟨.v4 0xA29FC602, 443, 0, 0⟩]
  controlApiCandidates := []
  mtu := 1280
  dnsServers := [.v4 0x01010101]
  splitExclusions := []
  allowLan := false
  killSwitch := true
  splitDns := false
  assignedIpv4 := some (IpNet.v4 172 16 0 2 32 IpNet.le_32)
  assignedIpv6 := none
  vpnChain := true
  deferNetworkConfiguration := false
  automaticEndpointPolicy := none
  presetEndpointPolicy := none

def sampleCaller : AuthenticatedCaller := ⟨42, "S-1-5-21", true⟩

/-- A platform that plans nothing; its restores and writes succeed. -/
def samplePlatform : Platform where
  planReplacementGuard _ := .error (.unavailable "")
  applyReplacementGuard _ := .error (.unavailable "")
  inspectReplacementGuard _ := .ok false
  restoreReplacementGuard _ := .ok ()
  inspectGuardPolicy _ := .ok true
  createDevice _ := .error (.unavailable "")
  inspectIdleDevice _ := .ok true
  planStep _ := .error (.unavailable "")
  applyStep _ := .error (.unavailable "")
  restoreStep _ := .ok ()
  inspectAdapter _ := .ok true
  inspectTunnel _ := .ok .reattachable
  resumePacketSession _ := .error (.unavailable "")
  planSystemProxy _ := .error (.unavailable "")
  applySystemProxy _ := .error (.unavailable "")
  write _ := .ok 1
  newUuid n := BitVec.ofNat 128 (n + 1)
  currentExe _ := .ok true
  detaches _ := false

/-- A prepared chain of an older agent, whose adapter is a step. -/
def legacyJournal : RecoveryJournal where
  schemaVersion := 3
  generation := 5
  device := none
  deviceBinding := none
  replacement := none
  phase := .prepared
  operationKind := some .tunnel
  operationId := some 11
  ownerSid := some "S-1-5-21"
  ownerProcessId := some 42
  plan := some samplePlan
  pauseDeadlineUnixSeconds := none
  steps :=
    [⟨.wintunAdapter, .applied, .wintunAdapter "Usque-000000000003" 3 9⟩,
      ⟨.killSwitch, .applied, .killSwitch 1 2 [3] []⟩]

def deviceJournal : RecoveryJournal :=
  { legacyJournal with
    schemaVersion := JOURNAL_SCHEMA_VERSION
    device := some ⟨1, 1, 1, "S-1-5-21", 42, .inUse, .wintunAdapter (ManagedDevice.name 1) 1 9⟩
    deviceBinding := some ⟨1, 1⟩
    phase := .active
    steps := [⟨.killSwitch, .applied, .killSwitch 1 2 [3] []⟩] }

/-- The network of the chain is configured; the restore of its DNS settings fails. -/
def stuckDns : Platform :=
  let receipt (n : Nat) : MutationReceipt :=
    if n < 6 then .interfaceConfiguration 9 none none [⟨.printed (IpNet.v4 172 16 0 2 32 IpNet.le_32), true⟩]
    else .dns 3 true []
  { samplePlatform with
    planStep := fun n => .ok (receipt n)
    applyStep := fun n => .ok (receipt n, ⟨none⟩)
    restoreStep := fun n => if n = 16 then .error (.unavailable "") else .ok () }

/-- The tunnel is finalized and rolled back, from a journal with the adapter in `phase`. -/
def runWith (phase : MutationState) : Option AgentCoordinator :=
  runFrom stuckDns (some ⟨1, .ok { legacyJournal with
      steps := legacyJournal.steps.set 0 ⟨.wintunAdapter, phase, .wintunAdapter "Usque-000000000003" 3 9⟩ }⟩)
    [.request (.finalizeTunnel 11 samplePlan sampleCaller), .request (.rollback 11 sampleCaller)]

/-- The tunnel of the device is replaced under a guard. -/
def guardedRun : Option AgentCoordinator :=
  let guard := MutationReceipt.killSwitch REPLACEMENT_WFP_PROVIDER_KEY REPLACEMENT_WFP_SUBLAYER_KEY
    [BitVec.ofNat 128 REPLACEMENT_FILTER_KEY_BASE] []
  let platform :=
    { samplePlatform with
      planReplacementGuard := fun _ => .ok guard
      applyReplacementGuard := fun _ => .ok guard
      inspectReplacementGuard := fun _ => .ok true }
  runFrom platform (some ⟨1, .ok deviceJournal⟩)
    [.request (.acquireDeviceLease sampleCaller),
      .request (.replaceTunnel 11 5 12 samplePlan sampleCaller ⟨3, 1⟩)]

variable {trace : List Entry}

section
variable {platform : Platform} {agent : AgentCoordinator}

/-! ## Write-ahead coverage -/

theorem Allowed.recorded {entry : Entry} {m : Mutation} (h : Allowed entry trace)
    (hm : entry.call.issued = some m) : (lastSaved trace).records m := by
  obtain ⟨request, journal, attached, call⟩ := entry
  cases call <;> first
    | cases hm; done
    | exact (h m hm).1

/-- **Write-ahead coverage**: at every point between two calls, the saved journal
    records every mutation that is outstanding, unless it is an interface
    configuration or DNS setting that went with its own adapter; and a mutation is only
    issued if the journal saved before records it. -/
theorem outstanding_recorded (h : Reachable (next platform) (Started platform) agent)
    {trace : List Entry} (ht : trace <:+ agent.trace) :
    (∀ m ∈ outstanding trace, (lastSaved trace).records m = true ∨ superseded trace m = true) ∧
    ∀ entry before, trace = entry :: before → ∀ m, entry.call.issued = some m →
      (lastSaved before).records m = true := by
  have hl : Legal trace := (reachable_stable h).legal.suffix ht
  refine ⟨fun m hm => (hl.covered m hm).symm, ?_⟩
  rintro entry before rfl m hm
  exact hl.1.recorded hm

theorem outstanding_recorded_stuckDns :
    ∃ agent, runWith .applied = some agent ∧ ∀ m ∈ outstanding agent.trace,
      (lastSaved agent.trace).records m = true ∨ superseded agent.trace m = true := by
  have hsome : (runWith .applied).isSome = true := by decide +kernel
  obtain ⟨agent, hrun⟩ := Option.isSome_iff_exists.1 hsome
  exact ⟨agent, hrun, (outstanding_recorded (reachable_runFrom hrun) (suffix_refl _)).1⟩

/-- What is outstanding and not recorded, with whether its adapter was removed after it. -/
def unrecorded (trace : List Entry) : List Bool :=
  ((outstanding trace).filter fun m => !(lastSaved trace).records m).map (adapterRemoved · trace)

theorem exists_unrecorded {trace : List Entry} {removed : Bool} (h : removed ∈ unrecorded trace) :
    ∃ m ∈ outstanding trace, (lastSaved trace).records m = false ∧
      adapterRemoved m trace = removed := by
  obtain ⟨m, hm, heq⟩ := mem_map.1 h
  obtain ⟨hin, hn⟩ := mem_filter.1 hm
  exact ⟨m, hin, (Bool.not_eq_true' _).mp hn, heq⟩

/-- The DNS settings that could not be restored are not recorded any more, once their
    adapter was restored. With a stale adapter they are not even restored. -/
theorem stuckDns_unrecorded :
    (∃ platform agent, Reachable (next platform) (Started platform) agent ∧
      ∃ m ∈ outstanding agent.trace, (lastSaved agent.trace).records m = false ∧
        adapterRemoved m agent.trace = true) ∧
    ∃ platform agent, Reachable (next platform) (Started platform) agent ∧
      ∃ m ∈ outstanding agent.trace, (lastSaved agent.trace).records m = false ∧
        adapterRemoved m agent.trace = false := by
  have hstuck : ((runWith .applied).any fun agent => decide (true ∈ unrecorded agent.trace)) = true := by
    decide +kernel
  have hstale : ((runWith .restored).any fun agent => decide (false ∈ unrecorded agent.trace)) = true := by
    decide +kernel
  obtain ⟨agent, hrun, hin⟩ := (Option.any_eq_true ..).1 hstuck
  obtain ⟨agent', hrun', hin'⟩ := (Option.any_eq_true ..).1 hstale
  exact ⟨⟨stuckDns, agent, reachable_runFrom hrun, exists_unrecorded (of_decide_eq_true hin)⟩,
    stuckDns, agent', reachable_runFrom hrun', exists_unrecorded (of_decide_eq_true hin')⟩

/-! ## The protection of a replacement -/

/-- **No unprotected gap**: `replace_tunnel` restores only under a guard that it has
    read back; the recovery path is closed to other requests while a replacement is
    pending; and the guard is removed only with the target live or after an abort has
    restored everything. -/
theorem replacement_protected (h : Reachable (next platform) (Started platform) agent)
    {entry : Entry} {before : List Entry} (ht : entry :: before <:+ agent.trace) :
    (∀ path receipt adapter result, entry.call = .restoreStep path receipt adapter result →
      entry.request.any Request.isReplace = true → GuardConfirmed entry.journal before) ∧
    (∀ path receipt adapter result, entry.call = .restoreStep path receipt adapter result →
      entry.journal.replacementPending = true → path = .recovery ∨ path = .replacement →
      entry.request.any Request.isReplace = true ∨ entry.request.any Request.isAbort = true) ∧
    ∀ receipt result, entry.call = .restoreReplacementGuard receipt result →
      TargetLive entry before ∨ AbortCleaned entry before := by
  have ha : Allowed entry before := ((reachable_stable h).legal.suffix ht).1
  have hrestore : ∀ path receipt adapter result,
      entry.call = .restoreStep path receipt adapter result →
      RestoreAllowed path entry.request entry.journal before := by
    intro path receipt adapter result hcall
    unfold Allowed at ha
    simpa only [hcall] using ha
  refine ⟨?_, ?_, ?_⟩
  · intro path receipt adapter result hcall hr
    exact (hrestore path receipt adapter result hcall).guarded hr
  · rintro path receipt adapter result hcall hp (hpath | hpath)
    · have hn := (hrestore path receipt adapter result hcall).recovery hpath
      exact absurd (hn.symm.trans hp) Bool.false_ne_true
    · exact (hrestore path receipt adapter result hcall).replacement hpath
  · intro receipt result hcall
    unfold Allowed at ha
    simpa only [hcall] using ha

/-- In the sample run the Kill Switch of the source is restored under the guard. -/
def restoresGuard : List Entry → Bool
  | ⟨request, _, _, .restoreStep _ receipt _ _⟩ :: _ =>
    request.any Request.isReplace && receipt == .killSwitch 1 2 [3] []
  | _ => false

theorem replacement_protected_guardedRun :
    ∃ agent entry before, guardedRun = some agent ∧ entry :: before <:+ agent.trace ∧
      (∃ path adapter result,
        entry.call = .restoreStep path (.killSwitch 1 2 [3] []) adapter result) ∧
      GuardConfirmed entry.journal before := by
  have hany : guardedRun.any (fun agent => restoresGuard (agent.trace.drop 8)) = true := by
    decide +kernel
  obtain ⟨agent, hrun, hentry⟩ := (Option.any_eq_true ..).1 hany
  unfold restoresGuard at hentry
  split at hentry
  · rename_i request journal attached path receipt adapter result before hdrop
    rw [Bool.and_eq_true, beq_iff_eq] at hentry
    have hsuffix : _ :: before <:+ agent.trace := hdrop ▸ drop_suffix 8 agent.trace
    refine ⟨agent, _, before, hrun, hsuffix, ⟨path, adapter, result, hentry.2 ▸ rfl⟩, ?_⟩
    exact (replacement_protected (reachable_runFrom hrun) hsuffix).1 path receipt adapter result rfl
      hentry.1
  · cases hentry

/-! ## Memory and disk -/

/-- The journals that were saved, the last one first. -/
def savedJournals (trace : List Entry) : List RecoveryJournal :=
  trace.filterMap fun entry =>
    match entry.call with
    | .save journal (.ok _) => some journal
    | _ => none

theorem Legal.savedJournals_pairwise (h : Legal trace) :
    (savedJournals trace).Pairwise (fun later earlier => earlier.generation < later.generation) ∧
    ∀ journal ∈ savedJournals trace, journal.generation ≤ (lastSaved trace).generation := by
  induction trace with
  | nil => exact ⟨.nil, fun _ hin => nomatch hin⟩
  | cons entry trace ih =>
    obtain ⟨hpair, hle⟩ := ih h.2
    obtain ⟨request, journal, attached, call⟩ := entry
    have ha := h.1
    cases call with
    | opened =>
      refine ⟨hpair, fun j hin => ?_⟩
      rcases ha.2 with rfl | heq
      · cases hin
      · exact (hle j hin).trans_eq (congrArg _ heq.symm)
    | save saved answer =>
      cases answer with
      | error => exact ⟨hpair, hle⟩
      | ok =>
        have hlt : ∀ j ∈ savedJournals trace, j.generation < saved.generation :=
          fun j hin => (hle j hin).trans_lt ha.2.1
        refine ⟨pairwise_cons.2 ⟨hlt, hpair⟩, fun j hin => ?_⟩
        rcases mem_cons.1 hin with rfl | hin
        · exact le_rfl
        · exact (hlt j hin).le
    | _ => exact ⟨hpair, hle⟩

/-- **Memory never runs ahead of disk.** In phase `Clean` the saved journal is `Clean`
    too, and so is what the next process loads. The saved generation is at most the
    one in memory, which no request lowers, and every save has a generation of its
    own. If a recovery fails, so does the request, and the phase is that of a failed
    recovery. -/
theorem memory_follows_disk (h : Reachable (next platform) (Started platform) agent) :
    (agent.journal.phase = .clean → (lastSaved agent.trace).phase = .clean ∧
      ∀ loaded, loadOrClean (storedFile agent.trace) = .ok loaded → loaded.phase = .clean) ∧
    (lastSaved agent.trace).generation ≤ agent.journal.generation ∧
    (savedJournals agent.trace).Pairwise
      (fun later earlier => earlier.generation < later.generation) ∧
    ∀ request agent' result, next platform agent (.request request) = (agent', result) →
      agent.journal.generation ≤ agent'.journal.generation ∧
      ∀ entry ∈ sinceRequest agent'.trace, ∀ before error,
        entry.call = .recovered before (.error error) →
        (∃ failure, result = .error failure) ∧
          FailedPhase before error agent'.journal agent'.trace := by
  have hs := reachable_stable h
  refine ⟨fun hc => ⟨hs.durable hc, fun loaded hl => ?_⟩, hs.generation,
    hs.legal.savedJournals_pairwise.1, ?_⟩
  · rw [hs.legal.loadOrClean_eq hl]
    exact hs.durable hc
  · intro request agent' result hnext
    obtain ⟨hhalted, hcalm⟩ := halted_next hs request
    rw [hnext] at hhalted hcalm
    obtain ⟨-, hstart, hfailed, hsound⟩ := hhalted
    refine ⟨?_, fun entry hin before error hcall => ⟨?_, hfailed entry hin before error hcall⟩⟩
    · have hle := hsound.since
      rwa [hstart] at hle
    · cases result with
      | error failure => exact ⟨failure, rfl⟩
      | ok => exact absurd hcall (hcalm rfl entry hin before error)

theorem memory_follows_disk_stuckDns :
    ∃ agent, runWith .applied = some agent ∧ agent.journal.phase = .clean ∧
      (lastSaved agent.trace).phase = .clean := by
  have hany : ((runWith .applied).any fun agent => decide (agent.journal.phase = .clean)) = true := by
    decide +kernel
  obtain ⟨agent, hrun, hclean⟩ := (Option.any_eq_true ..).1 hany
  have hclean := of_decide_eq_true hclean
  exact ⟨agent, hrun, hclean, ((memory_follows_disk (reachable_runFrom hrun)).1 hclean).1⟩

/-- The save before the removal of the device fails. -/
def unsavedRetirement : Platform :=
  { samplePlatform with write := fun n => if n = 7 then .error (.json "") else .ok 1 }

/-- A recovery that fails and leaves the phase `Clean`, with no replacement
    pending. -/
def failedRecovery (entry : Entry) : Bool :=
  match entry.call with
  | .recovered _ (.error _) => true
  | _ => false

def cleanFailure : AgentCoordinator × Except CoordinatorError Unit → Bool
  | (_, .ok _) => false
  | (agent, .error _) => (sinceRequest agent.trace).any failedRecovery &&
    decide (agent.journal.phase = .clean ∧ agent.journal.replacementPending = false)

theorem unsavedRetirement_clean :
    ∃ agent agent' error, Reachable (next unsavedRetirement) (Started unsavedRetirement) agent ∧
      next unsavedRetirement agent (.request .recoverStale) = (agent', .error error) ∧
      (∃ entry ∈ sinceRequest agent'.trace, ∃ before failure,
        entry.call = .recovered before (.error failure)) ∧
      agent'.journal.phase = .clean ∧ agent'.journal.replacementPending = false := by
  have hany : (runFrom unsavedRetirement (some ⟨1, .ok deviceJournal⟩) []).any (fun agent =>
      cleanFailure (next unsavedRetirement agent (.request .recoverStale))) = true := by
    decide +kernel
  obtain ⟨agent, hrun, hnext⟩ := (Option.any_eq_true ..).1 hany
  unfold cleanFailure at hnext
  split at hnext
  · cases hnext
  · rename_i agent' error heq
    obtain ⟨hentry, hphase⟩ := (Bool.and_eq_true ..).mp hnext
    obtain ⟨entry, hin, hcall⟩ := any_eq_true.1 hentry
    unfold failedRecovery at hcall
    split at hcall
    · rename_i before failure hrecovered
      exact ⟨agent, agent', error, reachable_runFrom hrun, heq, ⟨entry, hin, before, failure, hrecovered⟩,
        of_decide_eq_true hphase⟩
    · cases hcall

end

end Usque.Agent
