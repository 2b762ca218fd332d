/-
  Runs of the Linux agent: the requests that its coordinator serves, the restarts of the
  process at any point of them, and the calls that reach the host.

  * The `World` is the coordinator, the journal on disk and the calls that change the host
    (`NativeCall`), the last one first. A failed save leaves the old file or the new one.
  * `World.choose` decides a call by whether it succeeds; runs are computed with it.
  * `outstanding` are the effects that a call was issued for and that no successful
    restore has followed; `installed` and `lastGuardCall` are about the guard of a table.
-/
import Usque.Lib.History
import Usque.Linux.Coordinator

namespace Usque.Linux
open Agent (ValidatedTunnelPlan)
open Lib Fallible

/-! ## Calls that change the host -/

/-- A call that changes the host, with the table of its operation and its success. -/
inductive NativeCall where
  | apply (step : Step) (table : String) (ok : Bool)
  | installBridge (table : String) (ok : Bool)
  | restore (step : Step) (table : String) (ok : Bool)

/-- A step of the operation of a table; a bridge is its `Protection`. -/
structure Effect where
  table : String
  step : Step
deriving DecidableEq

def nativeEffects : WriteAhead NativeCall Effect Journal where
  issued
    | .apply step table _ => some ⟨table, step⟩
    | .installBridge table _ => some ⟨table, .protection⟩
    | .restore .. => none
  undoes
    | .restore step table true, effect => effect == ⟨table, step⟩
    | _, _ => false
  saved _ := none

/-- The effects for which a call was issued and that no successful restore has followed. -/
def outstanding (log : List NativeCall) : List Effect := nativeEffects.outstanding log

namespace NativeCall

def concerns (table : String) : NativeCall → Bool
  | apply step t _ | restore step t _ => step == .protection && t == table
  | installBridge t _ => t == table

/-- Whether the guard of the table is there after the call, if that is known. -/
def guard (table : String) : NativeCall → Option Bool
  | apply step t ok => if step = .protection ∧ t = table ∧ ok = true then some true else none
  | installBridge t ok => if t = table ∧ ok = true then some true else none
  | restore step t ok => if step = .protection ∧ t = table ∧ ok = true then some false else none

end NativeCall

/-- A call installed the guard of the table, and no restore of it has succeeded since. -/
def installed (table : String) : List NativeCall → Bool
  | [] => false
  | call :: log => (call.guard table).getD (installed table log)

def lastGuardCall (table : String) (log : List NativeCall) : Option NativeCall :=
  log.find? (·.concerns table)

/-! ## The world -/

structure World where
  coordinator : Coordinator
  disk : Journal
  log : List NativeCall

/-- `JournalStore::save` up to its file: the journal that it writes. -/
def Journal.save (journal : Journal) : Except IoError Journal := do
  journal.validate
  if journal.generation + 1 < 2 ^ 64 then pure { journal with generation := journal.generation + 1 }
  else .error (.invalid "Linux journal generation exhausted")

namespace World

def journal (world : World) : Journal := world.coordinator.journal

def logged (world : World) (call : NativeCall) : World :=
  { world with log := call :: world.log }

/-- `Coordinator::persist`: a save that fails may have replaced the file. -/
def Persists (world : World) (next : Journal) (answer : Except IoError Unit) (after : World) :
    Prop :=
  match next.save with
  | .error e =>
    answer = .error (.wrap .journal e) ∧
      after = { world with coordinator := { world.coordinator with persistenceUncertain := true } }
  | .ok saved =>
    answer = .ok () ∧
        after = { world with
          coordinator := { world.coordinator with journal := saved }
          disk := saved } ∨
      (∃ e, answer = .error (.wrap .journal e)) ∧
        ∃ disk, (disk = world.disk ∨ disk = saved) ∧
          after = { world with
            coordinator := { world.coordinator with persistenceUncertain := true }
            disk }

def Does : (op : LinuxOp) → World → op.Answer → World → Prop
  | .state, world, answer, after => answer = world.coordinator ∧ after = world
  | .persist next, world, answer, after => world.Persists next answer after
  | .load, world, answer, after =>
    answer = .ok () ∧ after = { world with coordinator := ⟨world.disk, false⟩ } ∨
      (∃ e, answer = .error e) ∧ after = world
  | .apply step resources _, world, answer, after =>
    after = world.logged (.apply step resources.nftTable answer.isOk)
  | .restore step resources _, world, answer, after =>
    after = world.logged (.restore step resources.nftTable answer.isOk)
  | .installBridge resources _, world, answer, after =>
    after = world.logged (.installBridge resources.nftTable answer.isOk)
  | _, world, _, after => after = world

end World

/-! ## Requests and restarts -/

inductive Request where
  | prepare (owner : Owner) (operationId : Uuid) (generation : ℕ) (plan : ValidatedTunnelPlan)
  | commit (owner : Owner) (operationId : Uuid)
  | finalize (owner : Owner) (operationId : Uuid) (plan : ValidatedTunnelPlan)
  | rollback (owner : Owner) (operationId : Uuid)
  | beginChainTransition (owner : Owner) (operationId : Uuid)
  | replace (owner : Owner) (source operationId : Uuid) (generation : ℕ)
    (plan : ValidatedTunnelPlan)
  | abortReplacement (owner : Owner) (target : Uuid) (generation : ℕ)
  | invalidatePhysicalNetwork
  | observePhysicalNetwork (observation : PhysicalObservation)
    (snapshot : Except IoError (List PhysicalInterface × List (List UInt8)))
  | reserveEgressMark (owner : Owner) (operationId : Uuid) (generation : ℕ)
  | requireRecovery
  | armAutomaticRecovery
  | automaticRecover (operation : Uuid) (generation : ℕ)
  | restartAutomaticRecovery (uid : ℕ) (operation : Uuid) (generation : ℕ) (ownerAlive : Bool)
  | recoverOrphaned (uid : ℕ) (operationId : Uuid) (generation : ℕ) (ownerAlive : Bool)
  | recover

def Request.code : Request → Code LinuxOp LinuxOp.Answer Unit
  | .prepare owner operationId generation plan =>
    ignore (Linux.prepare owner operationId generation plan)
  | .commit owner operationId => ignore (Linux.commit owner operationId)
  | .finalize owner operationId plan => ignore (Linux.finalize owner operationId plan)
  | .rollback owner operationId => ignore (Linux.rollback owner operationId)
  | .beginChainTransition owner operationId =>
    ignore (Linux.beginChainTransition owner operationId)
  | .replace owner source operationId generation plan =>
    ignore (Linux.replace owner source operationId generation plan)
  | .abortReplacement owner target generation =>
    ignore (Linux.abortReplacement owner target generation)
  | .invalidatePhysicalNetwork => ignore Linux.invalidatePhysicalNetwork
  | .observePhysicalNetwork observation snapshot =>
    ignore (Linux.observePhysicalNetwork observation snapshot)
  | .reserveEgressMark owner operationId generation =>
    ignore (Linux.reserveEgressMark owner operationId generation)
  | .requireRecovery => ignore Linux.requireRecovery
  | .armAutomaticRecovery => ignore Linux.armAutomaticRecovery
  | .automaticRecover operation generation => ignore (Linux.automaticRecover operation generation)
  | .restartAutomaticRecovery uid operation generation ownerAlive =>
    ignore (Linux.restartAutomaticRecovery uid operation generation ownerAlive)
  | .recoverOrphaned uid operationId generation ownerAlive =>
    ignore (Linux.recoverOrphaned uid operationId generation ownerAlive)
  | .recover => ignore Linux.recover

/-- A new process opens the file, and recovers first (`serve`) unless the tunnel is active
    and its owner is alive. -/
def Restarts (world after : World) (code : Code LinuxOp LinuxOp.Answer Unit) : Prop :=
  after = { world with coordinator := ⟨world.disk, false⟩ } ∧
    (code = ignore recover ∨ world.disk.phase = .active ∧ code = pure ())

def linuxService : Service LinuxOp LinuxOp.Answer Request World where
  does := World.Does
  serve := Request.code
  restarts := Restarts

def World.Fresh (world : World) : Prop :=
  world.disk = { generation := world.disk.generation } ∧
    world.coordinator = ⟨world.disk, false⟩ ∧ world.log = []

/-! ## Runs by choices -/

def answerOf {α : Type} (ok : Bool) (a : α) : Except IoError α :=
  if ok then .ok a else .error (.system .other 5)

/-- A save that succeeds or keeps the old file. -/
def World.choosePersist (ok : Bool) (next : Journal) (world : World) :
    World × Except IoError Unit :=
  match next.save with
  | .error e =>
    ({ world with coordinator := { world.coordinator with persistenceUncertain := true } },
      .error (.wrap .journal e))
  | .ok saved =>
    if ok then
      ({ world with
        coordinator := { world.coordinator with journal := saved }
        disk := saved }, .ok ())
    else
      ({ world with coordinator := { world.coordinator with persistenceUncertain := true } },
        .error (.wrap .journal (.system .other 5)))

theorem World.choosePersist_persists (ok : Bool) (next : Journal) (world : World) :
    Persists world next (choosePersist ok next world).2 (choosePersist ok next world).1 := by
  unfold Persists choosePersist
  rcases next.save with e | saved
  · exact ⟨rfl, rfl⟩
  · cases ok with
    | true => exact .inl ⟨rfl, rfl⟩
    | false => exact .inr ⟨⟨_, rfl⟩, world.disk, .inl rfl, rfl⟩

def World.choose (ok : Bool) : (op : LinuxOp) → World → World × op.Answer
  | .state, world => (world, world.coordinator)
  | .persist next, world => choosePersist ok next world
  | .load, world =>
    if ok then ({ world with coordinator := ⟨world.disk, false⟩ }, .ok ())
    else (world, .error (.system .other 5))
  | .apply step resources _, world =>
    (world.logged (.apply step resources.nftTable ok),
      answerOf ok { resources with interfaceIndex := some 1 })
  | .restore step resources _, world =>
    (world.logged (.restore step resources.nftTable ok), answerOf ok ())
  | .installBridge resources _, world =>
    (world.logged (.installBridge resources.nftTable ok), answerOf ok resources)
  | .preflight _, world | .invalidateNetwork _, world => (world, answerOf ok ())
  | .initializeGuard resources, world | .initializeResources resources, world =>
    (world, answerOf ok resources)
  | .takeReusableEgressMark, world => (world, none)

theorem World.choose_does (ok : Bool) (op : LinuxOp) (world : World) :
    Does op world (choose ok op world).2 (choose ok op world).1 := by
  cases op with
  | state => exact ⟨rfl, rfl⟩
  | persist next => exact choosePersist_persists ok next world
  | load =>
    cases ok with
    | true => exact .inl ⟨rfl, rfl⟩
    | false => exact .inr ⟨⟨_, rfl⟩, rfl⟩
  | apply | restore | installBridge => cases ok <;> rfl
  | _ => rfl

def World.reopen (world : World) : World × Code LinuxOp LinuxOp.Answer Unit :=
  ({ world with coordinator := ⟨world.disk, false⟩ }, ignore recover)

def sampleFresh : World := ⟨⟨{}, false⟩, {}, []⟩

theorem sampleFresh_fresh : sampleFresh.Fresh := ⟨rfl, rfl, rfl⟩

theorem World.reopen_restarts (world : World) :
    Restarts world world.reopen.1 world.reopen.2 := ⟨rfl, .inl rfl⟩

theorem replay_reaches {admits : Request → World → Prop}
    {stimuli : List (Service.Stimulus Request Bool)} {world : World}
    (hadmits : linuxService.Admitted World.choose World.reopen admits stimuli sampleFresh)
    (h : linuxService.replay World.choose World.reopen stimuli sampleFresh = some world) :
    linuxService.Reaches World.Fresh admits world (pure ()) :=
  Service.Reaches.replay World.choose_does World.reopen_restarts hadmits
    (.start sampleFresh_fresh) h

/-- A plan of a chain whose network is configured later. -/
def samplePlan : ValidatedTunnelPlan where
  profileId := 1
  endpoint := ⟨.v4 5, 443, 0, 0⟩
  endpointCandidates := [⟨.v4 5, 443, 0, 0⟩]
  controlApiCandidates := []
  mtu := 1280
  dnsServers := [.v4 7]
  splitExclusions := []
  allowLan := false
  killSwitch := true
  splitDns := false
  assignedIpv4 := some ⟨.v4 9, 32, by decide⟩
  assignedIpv6 := none
  vpnChain := true
  deferNetworkConfiguration := true
  automaticEndpointPolicy := none
  presetEndpointPolicy := none

def sampleOwner : Owner := ⟨1000, 7, 9⟩

/-- The calls before the last succeed. -/
def failsAt (n : ℕ) : List Bool := List.replicate n true ++ [false]

def preparing : Service.Stimulus Request Bool :=
  .request (.prepare sampleOwner 1 0 samplePlan) (List.replicate 40 true)

end Usque.Linux
