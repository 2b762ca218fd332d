/-
  The operations on the managed device and the replacement of a tunnel keep the
  invariant.
-/
import Usque.Agent.Operations

namespace Usque.Agent
open Lib AgentCoordinator Option Bool

variable {key : DeviceLeaseKey} {deviceId : Uuid} {receipt : MutationReceipt}
  {device : ManagedDevice} {state : DeviceState}

section
variable {platform : Platform} {q : Turn} {s s' : AgentCoordinator} {operationId : Uuid}
  {caller : AuthenticatedCaller}

/-! ## The lease and the retirement of the device -/

section
variable (h : Serving q s)
include h

section
variable (hq : q.isReplace = false) (hl : s.deviceLeaseAttached = false)
include hq hl

theorem Serving.retire {α : Type} {f : DeviceRetirement → Locked α}
    (k : ∀ r s', Serving q s' → Safe q (f r) s') : Safe q (retireDeviceLocked platform >>= f) s :=
  .bind ((retireDeviceLocked_ends h hq hl).mono (fun r s' h' => k r s' h'.1)
    fun _ _ h' => h'.1.halted)

theorem retireDeviceLocked_safe : Safe q (retireDeviceLocked platform) s :=
  (retireDeviceLocked_ends h hq hl).mono (fun _ _ h' => h'.1) fun _ _ h' => h'.1.halted

theorem recoverAndRetire_safe : Safe q (recoverAndRetire platform) s := by
  refine .bind (.read (.ite (fun _ => h.recover hq fun s1 h1 => ?_) fun _ => ?_))
  · refine retireDeviceLocked_safe h1.1 hq (eq_false_iff.2 fun ht => ?_)
    exact Bool.false_ne_true (hl.symm.trans (h1.2 ht))
  · refine .bind (h.ask (fun _ => .quiet rfl) fun _ s1 h1 ha => ?_)
    refine retireDeviceLocked_safe h1 hq (eq_false_iff.2 fun ht => ?_)
    exact Bool.false_ne_true (hl.symm.trans (ha.attached ht))

end

theorem retryDeviceRetirementPersistence_safe (hq : q.isReplace = false) :
    Safe q (retryDeviceRetirementPersistence platform) s :=
  .bind (.read (.when (fun _ => h.ensure fun hc => h.retire hq hc.2 fun _ _ h1 => .pure h1)
    fun _ => h))

theorem Serving.detach :
    Serving q { s with
      deviceLease := s.deviceLease.map fun lease => { lease with attached := false } } ∧
    deviceLeaseAttached { s with
      deviceLease := s.deviceLease.map fun lease => { lease with attached := false } } = false := by
  have hl : deviceLeaseAttached { s with
      deviceLease := s.deviceLease.map fun lease => { lease with attached := false } } = false := by
    cases hs : s.deviceLease <;> rfl
  refine ⟨⟨h.1, h.2.1, ?_⟩, hl⟩
  rw [hl]
  exact { h.sound with leased := fun ha => nomatch ha }

theorem recoverForProcessExit_safe (hq : q.isReplace = false) :
    Safe q (recoverForProcessExit platform) s :=
  .bind (.update (recoverAndRetire_safe h.detach.1 hq h.detach.2))

theorem detachDeviceLease_safe : Safe q (detachDeviceLease key caller) s :=
  .bind (.read (.ite (fun _ => .bind (.update (.pure h.detach.1))) fun _ => .pure h))

theorem acquireDeviceLease_safe : Safe q (acquireDeviceLease platform caller) s := by
  refine h.check fun _ _ => .bind (.read (h.check fun _ _ => h.ensure fun _ => h.ensure fun _ =>
    h.ensure fun _ => ?_))
  refine .bind (.update (.pure ⟨h.1, h.2.1, ?_⟩))
  exact { h.sound with leased := fun _ => rfl, retired := fun hr => nomatch hr }

theorem releaseDeviceLease_safe (hq : q.isReplace = false) :
    Safe q (releaseDeviceLease platform key caller) s :=
  .bind (.read (h.check fun _ _ => .bind (.update (recoverAndRetire_safe h.detach.1 hq h.detach.2))))

theorem retireOrphanedDevice_safe (hq : q.isReplace = false) :
    Safe q (retireOrphanedDevice platform key) s := by
  refine .bind (.read (.ite (fun hl => ?_) fun _ => .pure h))
  refine safe_bind (recoverAndRetire_safe h hq ?_) fun _ _ h1 => .pure h1
  unfold deviceLeaseAttached
  cases hs : s.deviceLease with
  | none => rfl
  | some =>
    simp only [id, hs, any_some, and_eq_true, not_eq_true'] at hl
    exact hl.2

theorem retireDevice_safe (hq : q.isReplace = false) : Safe q (retireDevice platform) s :=
  .bind (.read (h.ensure fun hc => retireDeviceLocked_safe h hq hc.2.2))

end

/-! ## Creating the device -/

/-- What the creation and the removal of the device keep. -/
def Aside (s s' : AgentCoordinator) : Prop :=
  s'.journal.steps = s.journal.steps ∧ s'.journal.replacement = s.journal.replacement ∧
    s'.deviceRetirementResult = s.deviceRetirementResult ∧ Grown s.trace s'.trace

theorem Aside.trans {s'' : AgentCoordinator} (h : Aside s s') (h' : Aside s' s'') : Aside s s'' :=
  ⟨h'.1.trans h.1, h'.2.1.trans h.2.1, h'.2.2.1.trans h.2.2.1, h.2.2.2.trans h'.2.2.2⟩

theorem Kept.aside (h : Kept s s') : Aside s s' :=
  ⟨h.steps, h.frame.replacement, h.frame.result, h.frame.grown⟩

theorem Asked.aside {call : Call} (h : Asked call s s') (hp : call.isPlain) : Aside s s' :=
  ⟨congrArg _ h.journal, congrArg _ h.journal, h.result, (h.frame hp).grown⟩

theorem Serving.setDevice (h : Serving q s) (device : Option ManagedDevice)
    (binding : Option DeviceBinding) (recorded : ∀ m ∈ outstanding s.trace, m.target = .device →
      ∃ d, device = some d ∧ d.receipt ∈ m.receipts) :
    Serving q { s with
      journal := { s.journal with device := device, deviceBinding := binding } } :=
  h.edit (h.sound.device binding recorded)

/-- The device with the intent was created: no other device is outstanding. -/
structure Creating (q : Turn) (deviceId : Uuid) (answer : Except BackendError MutationReceipt)
    (s s' : AgentCoordinator) : Prop where
  serving : Serving q s'
  aside : Aside s s'
  device : s'.journal.device.isSome = true
  outstanding : ∀ m ∈ outstanding s'.trace, m.target = .device →
    m.receipts = deviceIntent deviceId :: enriched .wintunAdapter answer

theorem Serving.intendDevice (h : Serving q s) (hd : s.journal.device = none)
    (device : ManagedDevice) (binding : Option DeviceBinding) :
    Serving q { s with
      journal := { s.journal with device := some device, deviceBinding := binding } } :=
  h.setDevice _ _ fun m hm ht => absurd ht (h.sound.no_device hd m hm)

theorem createDevice_issue {binding : Option DeviceBinding}
    {Q : Except BackendError MutationReceipt → AgentCoordinator → Prop}
    {E : CoordinatorError → AgentCoordinator → Prop} (h : Serving q s)
    (hd : s.journal.device = none) (hr : s.deviceRetirementResult = none)
    (hintent : device.receipt = deviceIntent deviceId) (hk : Kept { s with
      journal := { s.journal with device := some device, deviceBinding := binding } } s')
    (h' : Serving q s') (hl : lastSaved s'.trace = s'.journal)
    (k : ∀ answer s2, Creating q deviceId answer s s2 → Q answer s2) :
    Ends (ask platform platform.createDevice (.createDevice (deviceIntent deviceId))) Q E s' := by
  have hdevice : s'.journal.device = some device := hk.frame.device
  have hrec : ∀ receipts, s'.journal.records ⟨.device, deviceIntent deviceId :: receipts⟩ :=
    fun receipts => (records_device rfl).2 ⟨device, hdevice, hintent ▸ List.mem_cons_self ..⟩
  have hresl : s'.deviceRetirementResult = none := hk.frame.result.trans hr
  refine h'.ask (fun a => .issue rfl (hl ▸ hrec _) nofun
      ⟨hrec _, nofun, fun ht => (nomatch ht), fun _ => hresl⟩)
    fun answer s2 h2 ha => k answer s2 ⟨h2, hk.aside.trans (ha.aside rfl), ?_, fun m hm ht => ?_⟩
  · rw [ha.journal, hdevice]
    rfl
  · rw [ha.trace] at hm
    rcases mem_outstanding_cons.1 hm with hm | ⟨hm, -⟩
    · cases hm
      rfl
    · rw [hk.outstanding] at hm
      exact absurd ht (h.sound.no_device hd m hm)

theorem kind_of_identifiesDevice (h : identifiesDevice deviceId receipt) :
    receipt.kind = .wintunAdapter := by
  cases receipt <;> first | rfl | cases h

theorem Creating.updateDevice (h : Creating q deviceId (.ok receipt) s s')
    (hid : identifiesDevice deviceId receipt) :
    Serving q { s' with
      journal := { s'.journal with
        device := s'.journal.device.map fun device =>
          { device with receipt := receipt, state := state } } } := by
  refine h.serving.setDevice _ s'.journal.deviceBinding fun m hm ht => ?_
  obtain ⟨device, hd⟩ := isSome_iff_exists.1 h.device
  refine ⟨_, congrArg (Option.map _) hd, ?_⟩
  rw [h.outstanding m hm ht, ← kind_of_identifiesDevice hid]
  exact List.mem_cons_of_mem _ mem_enriched_ok

theorem failDevice_ends {α : Type} {error : CoordinatorError} {Q : α → AgentCoordinator → Prop}
    (h : Serving q s) :
    Ends (do
      setDeviceState state
      storeOrReturn platform
      Prog.fail error) Q (fun _ => Halted q) s :=
  .bind (.update (.bind ((h.harmless (.deviceState state _)).storeOrReturn
    (fun _ h1 _ _ => h1.halted) fun _ _ h1 _ => h1.halted)))

theorem createManagedDevice_ends (h : Serving q s) (hd : s.journal.device = none)
    (hr : s.deviceRetirementResult = none) :
    Ends (createManagedDevice platform caller)
      (fun _ s' => Serving q s' ∧ Aside s s' ∧ s'.journal.device.isSome)
      (fun _ => Halted q) s := by
  refine .bind (.read (.bind (.update (.bind ?_))))
  refine Serving.storeOrReturn (h.intendDevice hd _ s.journal.deviceBinding) (fun s1 h1 hk hl => ?_)
    fun _ _ h1 _ => h1.halted
  refine .bind (createDevice_issue h hd hr rfl hk h1 hl fun answer s2 hc => ?_)
  cases answer with
  | error => exact failDevice_ends hc.serving
  | ok =>
    refine .ite (fun hid => ?_) fun _ => failDevice_ends hc.serving
    refine .bind (.update (.bind (Serving.store (hc.updateDevice hid) (fun s3 h3 hk3 _ => ?_)
      fun _ s3 h3 _ => ?_)))
    · refine .pure ⟨h3, hc.aside.trans hk3.aside, ?_⟩
      rw [hk3.frame.device]
      exact isSome_map.trans hc.device
    · exact .bind (.update (h3.harmless (.deviceState _ _)).halted)

theorem reuseManagedDevice_ends (h : Serving q s) (hd : s.journal.device = some device) :
    Ends (reuseManagedDevice platform caller device)
      (fun _ s' => Serving q s' ∧ Aside s s' ∧ s'.journal.device.isSome)
      (fun _ => Halted q) s := by
  refine .bind (.read (.bind (.ensure (fun _ => ?_) fun _ => h.halted)))
  refine .bind (h.ask (fun _ => .quiet rfl) fun r s1 h1 ha => ?_)
  cases r with
  | error => exact failDevice_ends h1
  | ok idle =>
    cases idle with
    | false => exact failDevice_ends h1
    | true =>
      refine .pure ⟨h1, ha.aside rfl, ?_⟩
      rw [ha.journal, hd]
      rfl

theorem Serving.result_eq_none {key : Option DeviceLeaseKey} (h : Serving q s)
    (ho : requireDeviceOwner s caller key = .ok ()) : s.deviceRetirementResult = none := by
  refine h.sound.leased ?_
  rw [requireDeviceOwner, rejectIf_eq_ok] at ho
  simp only [not_eq_true', not_eq_false] at ho
  obtain ⟨lease, hl, hp⟩ := (any_eq_true ..).1 ho
  simp only [and_eq_true] at hp
  exact (any_eq_true ..).2 ⟨lease, hl, hp.1.1.1⟩

theorem prepareManaged_safe {plan : ValidatedTunnelPlan} {expectedGeneration : Nat}
    (h : Serving q s) (hq : q.isReplace = false) :
    Safe q (prepareManaged platform operationId plan caller key expectedGeneration) s := by
  refine h.check fun _ _ => h.check fun _ _ => .bind (.read (h.check fun _ ho => h.ensure fun _ =>
    h.ensure fun hcln => ?_))
  have hr := h.result_eq_none ho
  have hprepare : ∀ s1, (Serving q s1 ∧ Aside s s1 ∧ s1.journal.device.isSome) →
      Safe q (prepareLocked platform operationId plan caller) s1 := fun s1 ⟨h1, ha, hd⟩ =>
    (prepareLocked_ends h1 (ha.1.trans (h.sound.tracks.clean hcln).2.1) hd
      fun hr => nomatch hq.symm.trans hr).mono (fun _ _ h2 => h2.1) fun _ _ he => he
  simp only [id]
  cases hd : s.journal.device with
  | none =>
    exact .bind ((createManagedDevice_ends h hd hr).mono (fun _ s1 h1 => hprepare s1 h1)
      fun _ _ he => he)
  | some =>
    exact .bind ((reuseManagedDevice_ends h hd).mono (fun _ s1 h1 => hprepare s1 h1)
      fun _ _ he => he)

end

end Usque.Agent
