/-
  File:      Services/Stages.lean
  Subject:   THE CONTROL FLOW of the operations on services: which point may follow which, and which
             statements may commit.

  * `annotate_stages`, `reaches_quiet` -- assertions about some stages only have nothing to say
    where none of these follows.
-/
import HeteroCloud.Base.Runs
import HeteroCloud.Services.Program

namespace HeteroCloud.Services

open Base Iam
open Store (ServiceInstanceState StoreError)

/-! ## 1. The graph -/

inductive Stage where
  | createServiceInstance | createExisting | createOwner | createMember | createBackup | createLock
  | updateServiceInstance | updateExisting | updateProject
  | updateFlashService | updateSecrets | rollbackFlashService
  | putFlashSecret | putSecretList | putSecretStore | putSecretCommit | putSecretTransfer
  | deleteFlashSecret | deleteSecretTransfer | deleteSecretStore
  | setFlashServiceStopped | switchExisting
  | flashAccess | prepare | cloudAllocation | memberAllocation | attach
  | writeService | requestUser | writeRequest | changeEvent | changeCommit
  | beginDeleteServiceInstance | deleteExisting | deleteEvent | deleteCommit
  | recordFlashObservation | observationCommit
  | mintWorkloadToken | mintInsert | mintCommit | authenticateWorkloadToken
  | setServiceAccountEnabled | enabledCommit | deleteIamRole | addPrincipal | changeSurroundings
  | quota | quotaWrite | enqueueAccounts | enqueueScan | enqueueEvents | quotaCommit
  | syncGpuCatalog | syncUsers | syncDevices | syncScan | syncEvents | syncCommit
  | processOne | claimCommit | deliver | deliverOwner | deliverQuota | deliverMember
  | deliverMemberLimits | deliverCloud | deliverAccounts | send
  | completeDelete | completeCommit | markService | markCommit | markDelivered | retry
  | settle | done
  deriving DecidableEq, Repr

def Call.stage : Call → Stage
  | .createServiceInstance _ => .createServiceInstance
  | .createExisting _ => .createExisting
  | .createOwner _ => .createOwner
  | .createMember _ _ => .createMember
  | .createBackup _ _ => .createBackup
  | .createLock _ => .createLock
  | .updateServiceInstance _ => .updateServiceInstance
  | .updateExisting _ => .updateExisting
  | .updateProject _ => .updateProject
  | .updateFlashService _ => .updateFlashService
  | .updateSecrets _ => .updateSecrets
  | .rollbackFlashService _ => .rollbackFlashService
  | .putFlashSecret _ => .putFlashSecret
  | .putSecretList _ _ => .putSecretList
  | .putSecretStore _ _ => .putSecretStore
  | .putSecretCommit _ _ => .putSecretCommit
  | .putSecretTransfer _ _ => .putSecretTransfer
  | .deleteFlashSecret _ => .deleteFlashSecret
  | .deleteSecretTransfer _ => .deleteSecretTransfer
  | .deleteSecretStore _ => .deleteSecretStore
  | .setFlashServiceStopped _ => .setFlashServiceStopped
  | .switchExisting _ => .switchExisting
  | .flashAccess _ => .flashAccess
  | .prepare _ => .prepare
  | .cloudAllocation _ _ => .cloudAllocation
  | .memberAllocation _ _ => .memberAllocation
  | .attach _ _ => .attach
  | .writeService _ _ => .writeService
  | .requestUser _ _ => .requestUser
  | .writeRequest _ _ => .writeRequest
  | .changeEvent _ _ => .changeEvent
  | .changeCommit _ _ => .changeCommit
  | .beginDeleteServiceInstance _ => .beginDeleteServiceInstance
  | .deleteExisting _ => .deleteExisting
  | .deleteEvent _ _ => .deleteEvent
  | .deleteCommit _ _ => .deleteCommit
  | .recordFlashObservation _ _ => .recordFlashObservation
  | .observationCommit _ => .observationCommit
  | .mintWorkloadToken _ => .mintWorkloadToken
  | .mintInsert _ _ => .mintInsert
  | .mintCommit _ => .mintCommit
  | .authenticateWorkloadToken _ => .authenticateWorkloadToken
  | .setServiceAccountEnabled _ _ _ => .setServiceAccountEnabled
  | .enabledCommit _ _ _ => .enabledCommit
  | .deleteIamRole _ _ _ => .deleteIamRole
  | .addPrincipal _ => .addPrincipal
  | .changeSurroundings _ => .changeSurroundings
  | .quota _ => .quota
  | .quotaWrite _ => .quotaWrite
  | .enqueueAccounts _ _ => .enqueueAccounts
  | .enqueueScan _ _ => .enqueueScan
  | .enqueueEvents _ _ _ => .enqueueEvents
  | .quotaCommit _ => .quotaCommit
  | .syncGpuCatalog _ => .syncGpuCatalog
  | .syncUsers _ => .syncUsers
  | .syncDevices _ => .syncDevices
  | .syncScan _ => .syncScan
  | .syncEvents _ _ => .syncEvents
  | .syncCommit _ => .syncCommit
  | .processOne _ _ => .processOne
  | .claimCommit _ _ => .claimCommit
  | .deliver _ _ => .deliver
  | .deliverOwner _ => .deliverOwner
  | .deliverQuota _ _ => .deliverQuota
  | .deliverMember _ _ _ => .deliverMember
  | .deliverMemberLimits _ _ _ _ => .deliverMemberLimits
  | .deliverCloud _ _ _ _ => .deliverCloud
  | .deliverAccounts _ _ _ _ _ _ => .deliverAccounts
  | .send _ _ => .send
  | .completeDelete _ => .completeDelete
  | .completeCommit _ => .completeCommit
  | .markService _ _ _ => .markService
  | .markCommit _ => .markCommit
  | .markDelivered _ => .markDelivered
  | .retry _ _ => .retry
  | .settle => .settle
  | .done _ => .done

/-- The stages a statement may lead to, besides `done`. -/
def Stage.next : Stage → List Stage
  | .createServiceInstance => [.createExisting]
  | .createExisting => [.createOwner]
  | .createOwner => [.createMember]
  | .createMember => [.createBackup]
  | .createBackup => [.createLock]
  | .createLock => [.flashAccess, .prepare]
  | .updateServiceInstance => [.updateExisting]
  | .updateExisting => [.updateProject]
  | .updateProject => [.flashAccess, .prepare]
  | .updateFlashService => [.updateSecrets, .updateServiceInstance]
  | .updateSecrets | .rollbackFlashService | .putSecretTransfer => [.updateServiceInstance]
  | .putFlashSecret => [.putSecretList]
  | .putSecretList => [.putSecretStore]
  | .putSecretStore => [.putSecretCommit]
  | .putSecretCommit => [.putSecretTransfer, .updateServiceInstance]
  | .deleteFlashSecret => [.deleteSecretTransfer]
  | .deleteSecretTransfer => [.deleteSecretStore]
  | .setFlashServiceStopped => [.switchExisting]
  | .switchExisting => [.flashAccess, .prepare, .writeService]
  | .flashAccess => [.prepare]
  | .prepare => [.cloudAllocation]
  | .cloudAllocation => [.memberAllocation]
  | .memberAllocation => [.attach]
  | .attach => [.writeService]
  | .writeService => [.requestUser, .changeEvent]
  | .requestUser => [.writeRequest]
  | .writeRequest => [.changeEvent]
  | .changeEvent => [.changeCommit]
  | .beginDeleteServiceInstance => [.deleteExisting]
  | .deleteExisting => [.deleteEvent]
  | .deleteEvent => [.deleteCommit]
  | .recordFlashObservation => [.observationCommit]
  | .mintWorkloadToken => [.mintInsert]
  | .mintInsert => [.mintCommit]
  | .setServiceAccountEnabled => [.enabledCommit]
  | .deleteIamRole | .addPrincipal | .changeSurroundings | .deleteSecretStore => [.settle]
  | .quota => [.quotaWrite]
  | .quotaWrite => [.enqueueAccounts, .enqueueScan, .quotaCommit]
  | .enqueueAccounts => [.enqueueScan]
  | .enqueueScan => [.enqueueEvents, .quotaCommit]
  | .enqueueEvents => [.enqueueScan, .enqueueEvents]
  | .syncGpuCatalog => [.syncUsers]
  | .syncUsers => [.syncDevices]
  | .syncDevices => [.syncScan]
  | .syncScan => [.syncEvents]
  | .syncEvents => [.syncEvents, .syncCommit]
  | .processOne => [.claimCommit]
  | .claimCommit => [.deliver]
  | .deliver => [.deliverOwner, .send, .markDelivered, .retry]
  | .deliverOwner => [.deliverQuota, .retry]
  | .deliverQuota => [.deliverMember, .deliverCloud, .retry]
  | .deliverMember => [.deliverMemberLimits, .retry]
  | .deliverMemberLimits => [.deliverCloud, .retry]
  | .deliverCloud => [.deliverAccounts, .send, .retry]
  | .deliverAccounts => [.send, .retry]
  | .send => [.completeDelete, .markService, .markDelivered, .retry]
  | .completeDelete => [.completeCommit]
  | .markService => [.markCommit]
  | .completeCommit | .markCommit => [.markDelivered]
  | .markDelivered | .retry => [.settle]
  | .changeCommit | .deleteCommit | .observationCommit | .mintCommit | .authenticateWorkloadToken
  | .enabledCommit | .quotaCommit | .syncCommit | .settle | .done => []

/-- The statement may commit. -/
def Stage.commits : Stage → Bool
  | .createExisting | .switchExisting | .deleteExisting | .changeCommit | .deleteCommit
  | .observationCommit | .mintCommit | .enabledCommit | .quotaCommit | .syncCommit | .claimCommit
  | .completeCommit | .markCommit | .putSecretCommit | .settle => true
  | _ => false

def isCommit : Statement → Bool
  | .commit _ => true
  | _ => false

/-- The statement is one of the stage. -/
def Stage.follows (s : Stage) (o : Statement) : Bool :=
  (Stage.done :: s.next).contains o.next.stage && (!isCommit o || s.commits)

/-! ## 2. Statements follow it -/

section Follows
variable {u : Setup} {d : Db} {clock now : Int} {uuid : Nat → Nat} {o : Statement}
variable {s : Stage}

theorem follows_check {α : Type} {result : Except StoreError α} {next : α → Statement} (h : ∀ a,
    result = .ok a → s.follows (next a) = true) : s.follows (check result next) = true := by
  unfold check
  split
  · exact h _ rfl
  · cases s <;> rfl

variable {ch : Change}

theorem follows_begin {locks : Locks} {writes : List Write} (hf : s.next.contains .flashAccess =
    true) (hp : s.next.contains .prepare = true) : s.follows (.stmt locks writes ch.begin) =
    true := by
  unfold Change.begin
  split
  · simpa [Stage.follows, Outcome.next, Call.stage, isCommit] using hf
  · simpa [Stage.follows, Outcome.next, Call.stage, isCommit] using hp

variable {n : NewService}

theorem createExisting_follows : Stage.createExisting.follows (createExisting d n) = true := by
  unfold createExisting
  split
  · split_ifs <;> rfl
  · rfl

theorem createOwner_follows : Stage.createOwner.follows (createOwner d n) = true := by
  unfold createOwner
  split <;> rfl

variable {owner : Option Uuid}

theorem createMember_follows : Stage.createMember.follows (createMember d n owner) = true := by
  unfold createMember
  split
  · split_ifs <;> rfl
  · split_ifs <;> rfl

theorem createBackup_follows : Stage.createBackup.follows (createBackup d n owner) = true := by
  unfold createBackup
  split
  · split_ifs <;> rfl
  · rfl

theorem updateServiceInstance_follows {q : ServiceUpdate} :
    Stage.updateServiceInstance.follows (updateServiceInstance u q) = true := by
  unfold updateServiceInstance
  split_ifs <;> rfl

theorem updateExisting_follows {q : ServiceUpdate} :
    Stage.updateExisting.follows (updateExisting d q) = true := by
  unfold updateExisting
  split
  · rfl
  · split_ifs <;> rfl

theorem updateProject_follows : Stage.updateProject.follows (updateProject d ch) = true := by
  unfold updateProject
  split_ifs
  · exact follows_begin rfl rfl
  · rfl

theorem updateFlashService_follows {q : FlashServiceUpdate} :
    Stage.updateFlashService.follows (updateFlashService u d q) = true := by
  unfold updateFlashService
  split
  · rfl
  dsimp only
  split
  · rfl
  split
  · rfl
  split
  · rfl
  · split <;> rfl

theorem updateSecrets_follows {q : ServiceUpdate} :
    Stage.updateSecrets.follows (updateSecrets d q) = true := by
  unfold updateSecrets
  split <;> rfl

theorem rollbackFlashService_follows {q : FlashRollback} :
    Stage.rollbackFlashService.follows (rollbackFlashService u d q) = true := by
  unfold rollbackFlashService
  split
  · rfl
  split
  · rfl
  split
  · rfl
  split
  · rfl
  · split <;> rfl

variable {q : FlashSecretPut}

theorem putFlashSecret_follows : Stage.putFlashSecret.follows (putFlashSecret d q) = true := by
  unfold putFlashSecret
  split
  · rfl
  split
  · rfl
  · split <;> rfl

variable {service : ServiceRow}

theorem putSecretList_follows : Stage.putSecretList.follows (putSecretList d q service) = true := by
  unfold putSecretList
  split <;> rfl

theorem finish_follows : Stage.putSecretTransfer.follows (.read (q.finish service)) = true := by
  unfold FlashSecretPut.finish
  split
  · split <;> rfl
  · rfl
  · rfl

theorem putSecretCommit_follows : Stage.putSecretCommit.follows (.commit (q.stored service)) =
    true := by
  unfold FlashSecretPut.stored
  split
  · rfl
  unfold FlashSecretPut.finish
  split
  · split <;> rfl
  · rfl
  · rfl

theorem deleteFlashSecret_follows {q : FlashSecretDeletion} :
    Stage.deleteFlashSecret.follows (deleteFlashSecret d q) = true := by
  unfold deleteFlashSecret
  split
  · rfl
  split
  · rfl
  split
  · rfl
  · split <;> rfl

theorem deleteSecretStore_follows {q : FlashSecretDeletion} :
    Stage.deleteSecretStore.follows (deleteSecretStore d q) = true := by
  unfold deleteSecretStore
  split <;> rfl

theorem switchExisting_follows {q : FlashSwitch} :
    Stage.switchExisting.follows (switchExisting d q) = true := by
  unfold switchExisting
  split
  · rfl
  split_ifs
  · rfl
  · rfl
  · rfl
  · exact follows_begin rfl rfl

theorem flashAccess_follows : Stage.flashAccess.follows (flashAccess u d ch) = true := by
  unfold flashAccess
  refine follows_check fun _ _ => ?_
  split
  · exact follows_check fun _ _ => rfl
  · rfl

variable {spec : ServiceSpec}

theorem memberAllocation_follows : Stage.memberAllocation.follows (memberAllocation d ch spec) =
    true := by
  unfold memberAllocation
  split
  · rfl
  · exact follows_check fun _ _ => rfl

theorem attach_follows : Stage.attach.follows (attach d ch spec) = true := by
  unfold attach
  split
  · exact follows_check fun _ _ => follows_check fun _ _ => rfl
  · rfl

theorem writeService_follows : Stage.writeService.follows (writeService d ch spec) = true := by
  unfold writeService Change.afterRow
  dsimp only
  split_ifs <;> rfl

theorem requestUser_follows : Stage.requestUser.follows (requestUser d ch spec) = true := by
  unfold requestUser
  split <;> rfl

theorem writeRequest_follows : Stage.writeRequest.follows (writeRequest d ch spec) = true := by
  unfold writeRequest
  split_ifs <;> rfl

theorem deleteExisting_follows {q : ServiceDeletion} :
    Stage.deleteExisting.follows (deleteExisting d q) = true := by
  unfold deleteExisting
  split_ifs
  · rfl
  split
  · rfl
  · split_ifs <;> rfl

theorem recordFlashObservation_follows {seen : ServiceRow} {status : Json} :
    Stage.recordFlashObservation.follows (recordFlashObservation d seen status) = true := by
  unfold recordFlashObservation
  split_ifs
  · rfl
  · split <;> rfl

variable {m : WorkloadTokenMint}

theorem mintWorkloadToken_follows : Stage.mintWorkloadToken.follows (mintWorkloadToken d m) =
    true := by
  unfold mintWorkloadToken
  split <;> rfl

variable {organization : Uuid}

theorem mintInsert_follows : Stage.mintInsert.follows (mintInsert d now uuid m organization) =
    true := by
  unfold mintInsert
  dsimp only
  split_ifs <;> rfl

theorem setServiceAccountEnabled_follows {role : Uuid} {enabled : Bool} :
    Stage.setServiceAccountEnabled.follows (setServiceAccountEnabled d organization role enabled) =
    true := by
  unfold setServiceAccountEnabled
  split_ifs <;> rfl

theorem deleteIamRole_follows {account role : Uuid} {detached : Bool} :
    Stage.deleteIamRole.follows (deleteIamRole d account role detached) = true := by
  unfold deleteIamRole
  split
  · rfl
  · split_ifs <;> rfl

variable {op : QuotaOp}

theorem quota_follows : Stage.quota.follows (quota u op) = true := by
  unfold quota
  split <;> rfl

theorem setMemberQuota_follows {user : Uuid} {limits : Option ResourceQuotaLimits} :
    Stage.quotaWrite.follows (setMemberQuota d op organization user limits) = true := by
  unfold setMemberQuota
  refine follows_check fun _ _ => ?_
  split
  · rfl
  split
  · rfl
  refine follows_check fun _ _ => ?_
  split
  · rfl
  split
  · rfl
  split
  · rfl
  · split <;> rfl

theorem assignQuotaResource_follows {resource user : Uuid} {serviceAccount : Bool} :
    Stage.quotaWrite.follows (assignQuotaResource d op organization resource user serviceAccount) =
    true := by
  unfold assignQuotaResource
  split_ifs
  · rfl
  · split <;> rfl
  · split <;> rfl

theorem createCloudMemberAccount_follows {management user : Uuid} : Stage.quotaWrite.follows
    (createCloudMemberAccount u d uuid op management user) = true := by
  unfold createCloudMemberAccount
  split
  · rfl
  · split_ifs <;> rfl

theorem quotaWrite_follows : Stage.quotaWrite.follows (quotaWrite u d uuid op) = true := by
  unfold quotaWrite
  split
  · rfl
  · split_ifs <;> rfl
  · split_ifs
    · exact follows_check fun _ _ => rfl
    · rfl
  · exact setMemberQuota_follows
  · exact assignQuotaResource_follows
  · rfl
  · exact createCloudMemberAccount_follows
  · rfl

theorem syncGpuCatalog_follows {devices : List GpuDeviceRow} :
    Stage.syncGpuCatalog.follows (syncGpuCatalog devices) = true := by
  unfold syncGpuCatalog
  split_ifs <;> rfl

theorem claimOutboxEvent_follows {pick : Uuid} {x : Exchange} :
    Stage.processOne.follows (claimOutboxEvent d now pick x) = true := by
  unfold claimOutboxEvent
  split <;> rfl

theorem deliver_follows {ev : OutboxEventRow} {x : Exchange} :
    Stage.deliver.follows (.read (deliver u d ev x)) = true := by
  unfold deliver
  split
  · rfl
  split
  · rfl
  split
  · split <;> rfl
  · split_ifs <;> rfl

variable {dl : Delivery}

theorem follows_fetch {α : Type} {result : Except StoreError α} {next : α → Call} (hr :
    s.next.contains .retry = true) (h : ∀ a, result = .ok a → s.follows (.read (next a)) = true) :
    s.follows (.read (fetch dl result next)) = true := by
  unfold fetch
  split
  · exact h _ rfl
  · simpa [Stage.follows, Outcome.next, Call.stage, isCommit] using hr

theorem deliverOwner_follows : Stage.deliverOwner.follows (.read (deliverOwner d dl)) = true := by
  unfold deliverOwner
  split <;> rfl

theorem deliverQuota_follows : Stage.deliverQuota.follows (.read (deliverQuota d dl owner)) =
    true := by
  unfold deliverQuota
  refine follows_fetch rfl fun _ _ => ?_
  split <;> rfl

variable {member : Option WeeklyLimits}

theorem deliverCloud_follows {quota : ResourceQuotaLimits} : Stage.deliverCloud.follows (.read
    (deliverCloud u d dl owner quota member)) = true := by
  unfold deliverCloud
  split
  · rfl
  · split_ifs <;> rfl

theorem deliverAccounts_follows {quota limits : ResourceQuotaLimits} {cloud : Uuid} :
    Stage.deliverAccounts.follows (.read (deliverAccounts u d dl owner quota member cloud limits)) =
    true := by
  unfold deliverAccounts
  dsimp only
  split_ifs
  · rfl
  · exact follows_fetch rfl fun _ _ => rfl

theorem send_follows : Stage.send.follows (.read (send dl)) = true := by
  unfold send
  split
  · rfl
  unfold answered
  split
  · rfl
  split
  · split <;> rfl
  split
  · split <;> rfl
  split
  · rfl
  · split_ifs <;> rfl

theorem completeDelete_follows : Stage.completeDelete.follows (completeDelete d dl) = true := by
  unfold completeDelete
  split <;> rfl

theorem markService_follows {state : ServiceInstanceState} {status : Json} :
    Stage.markService.follows (markService d dl state status) = true := by
  unfold markService
  split <;> rfl

/-- **Every statement follows the graph.** -/
theorem exec_follows {c : Call} (h : exec u clock now uuid d c = some o) :
    c.stage.follows o = true := by
  cases c with
  | done => cases h
  | createExisting => cases h; exact createExisting_follows
  | createOwner => cases h; exact createOwner_follows
  | createMember => cases h; exact createMember_follows
  | createBackup => cases h; exact createBackup_follows
  | createLock => cases h; exact follows_begin rfl rfl
  | updateServiceInstance => cases h; exact updateServiceInstance_follows
  | updateExisting => cases h; exact updateExisting_follows
  | updateProject => cases h; exact updateProject_follows
  | updateFlashService => cases h; exact updateFlashService_follows
  | updateSecrets => cases h; exact updateSecrets_follows
  | rollbackFlashService => cases h; exact rollbackFlashService_follows
  | putFlashSecret => cases h; exact putFlashSecret_follows
  | putSecretList => cases h; exact putSecretList_follows
  | putSecretCommit => cases h; exact putSecretCommit_follows
  | putSecretTransfer => cases h; exact finish_follows
  | deleteFlashSecret => cases h; exact deleteFlashSecret_follows
  | deleteSecretStore => cases h; exact deleteSecretStore_follows
  | switchExisting => cases h; exact switchExisting_follows
  | flashAccess => cases h; exact flashAccess_follows
  | prepare | cloudAllocation | syncDevices => cases h; exact follows_check fun _ _ => rfl
  | memberAllocation => cases h; exact memberAllocation_follows
  | attach => cases h; exact attach_follows
  | writeService => cases h; exact writeService_follows
  | requestUser => cases h; exact requestUser_follows
  | writeRequest => cases h; exact writeRequest_follows
  | deleteExisting => cases h; exact deleteExisting_follows
  | recordFlashObservation => cases h; exact recordFlashObservation_follows
  | mintWorkloadToken => cases h; exact mintWorkloadToken_follows
  | mintInsert => cases h; exact mintInsert_follows
  | setServiceAccountEnabled => cases h; exact setServiceAccountEnabled_follows
  | deleteIamRole => cases h; exact deleteIamRole_follows
  | quota => cases h; exact quota_follows
  | quotaWrite => cases h; exact quotaWrite_follows
  | enqueueScan _ scopes => cases h; cases scopes <;> rfl
  | enqueueEvents _ rows | syncEvents _ rows => cases h; cases rows <;> rfl
  | syncGpuCatalog => cases h; exact syncGpuCatalog_follows
  | processOne => cases h; exact claimOutboxEvent_follows
  | deliver => cases h; exact deliver_follows
  | deliverOwner => cases h; exact deliverOwner_follows
  | deliverQuota => cases h; exact deliverQuota_follows
  | deliverMember | deliverMemberLimits => cases h; exact follows_fetch rfl fun _ _ => rfl
  | deliverCloud => cases h; exact deliverCloud_follows
  | deliverAccounts => cases h; exact deliverAccounts_follows
  | send => cases h; exact send_follows
  | completeDelete => cases h; exact completeDelete_follows
  | markService => cases h; exact markService_follows
  | _ => cases h; rfl

end Follows

/-! ## 3. Assertions about some stages -/

section Quiet
variable {u : Setup} {d : Db} {w : View} {e : Event Db Key Write Call} {uuid : Nat → Nat} {i : Nat}
  {r : Running Key Write Call} {o : Statement}
variable (concerned : Stage → Bool)

/-- No stage that follows is one of those. -/
def Stage.quiet (s : Stage) : Bool :=
  (Stage.done :: s.next).all fun t => !concerned t

variable {B : Db → View → Nat → Running Key Write Call → Prop}

/-- **Where none of the stages follows, there is nothing to show.** -/
theorem reaches_quiet (hB : ∀ {d w i r}, concerned r.call.stage = false → B d w i r) (hq :
    r.call.stage.quiet concerned = true) (h : exec u w.clock (r.began.getD w.clock) uuid ((program
    u).view r d) r.call = some o) : Reaches (program u) B d w e uuid i r o := by
  have hf := exec_follows h
  simp only [Stage.follows, Bool.and_eq_true, List.contains_iff_mem] at hf
  have hfree : concerned o.next.stage = false := by
    have hall := List.all_eq_true.mp hq _ hf.1
    rwa [Bool.not_eq_true'] at hall
  cases o with
  | read c => exact hB (r := { r with call := c }) hfree
  | stmt _ _ c => exact hB (r := ⟨c, _, _, _⟩) hfree
  | commit c => exact fun w' _ => hB (r := ⟨c, [], [], none⟩) hfree
  | rollback c => exact hB (r := ⟨c, [], [], none⟩) hfree

/-- The stages of a call when it starts, and after a failure. -/
def Stage.entries : List Stage :=
  [.createServiceInstance, .updateServiceInstance, .updateFlashService, .rollbackFlashService,
    .putFlashSecret, .deleteFlashSecret, .setFlashServiceStopped, .beginDeleteServiceInstance,
    .recordFlashObservation, .mintWorkloadToken, .authenticateWorkloadToken,
    .setServiceAccountEnabled, .deleteIamRole, .addPrincipal, .changeSurroundings, .quota,
    .syncGpuCatalog, .processOne, .retry, .done]

variable {c : Call}

theorem start_entry (h : c.isStart = true) : c.stage ∈ Stage.entries := by
  cases c with
  | createServiceInstance | updateServiceInstance | updateFlashService | rollbackFlashService
  | putFlashSecret | deleteFlashSecret | setFlashServiceStopped | beginDeleteServiceInstance
  | recordFlashObservation | mintWorkloadToken | authenticateWorkloadToken
  | setServiceAccountEnabled | deleteIamRole | addPrincipal | changeSurroundings | quota
  | syncGpuCatalog | processOne => simp [Call.stage, Stage.entries]
  | _ => cases h

theorem fail_entry {c' : Call} (h : fail c = some c') : c'.stage ∈ Stage.entries := by
  have hretry : Stage.retry ∈ Stage.entries := by decide
  have hdone : Stage.done ∈ Stage.entries := by decide
  cases c with
  | done => cases h
  | deliver | deliverOwner | deliverQuota | deliverMember | deliverMemberLimits | deliverCloud
  | deliverAccounts | send | completeDelete | completeCommit | markService | markCommit =>
    cases h
    exact hretry
  | _ =>
    cases h
    exact hdone

/-- **Assertions about some stages only**, over an outline that has been shown. -/
theorem annotate_stages {I : Db → View → Prop} {A : Db → View → Nat → Running Key Write Call → Prop}
    (O : Duties (program u) (guards u) I A) (hB : ∀ {d w i r}, concerned r.call.stage = false → B d
    w i r) (hentries : Stage.entries.all (fun s => !concerned s) = true) (hmono : ∀ {d w w' i r},
    w.Grows d w' → B d w i r → B d w' i r) (hstep : ∀ {d w e i r uuid o}, Ready (guards u) I d w e
    uuid i r → A d w i r → B d w i r → exec u w.clock (r.began.getD w.clock) uuid ((program u).view
    r d) r.call = some o → Reaches (program u) B d w e uuid i r o) (hstable : ∀ {d w held x i r},
    Committed (guards u) w held x → Compatible held r.held → A d w i r → B d w i r → B (x.apply d) w
    i r) : Duties (program u) (guards u) I (fun d w i r => A d w i r ∧ B d w i r) :=
    by
  have hentry {s : Stage} (hs : s ∈ Stage.entries) : concerned s = false := by
    have h := List.all_eq_true.mp hentries s hs
    rwa [Bool.not_eq_true'] at h
  exact O.annotate
    { mono_at := hmono
      start := fun hc => hB (hentry (start_entry hc))
      step := hstep
      stable := hstable
      fail := fun _ _ hc => hB (hentry (fail_entry hc)) }

/-- A check in a transaction leads on, or nowhere. -/
theorem reaches_check {α : Type} {result : Except StoreError α} {next : α → Statement} (hdone : ∀
    error, Reaches (program u) B d w e uuid i r (abort error)) (h : ∀ a, result = .ok a → Reaches
    (program u) B d w e uuid i r (next a)) : Reaches (program u) B d w e uuid i r (check result
    next) := by
  unfold check
  split
  · exact h _ rfl
  · exact hdone _

/-- A statement that commits is at a stage that may. -/
theorem exec_commits {clock now : Int} {c' : Call} (h : exec u clock now uuid d c = some (.commit
    c')) : c.stage.commits = true := by
  have hf := exec_follows h
  simp only [Stage.follows, isCommit, Bool.and_eq_true] at hf
  exact hf.2

end Quiet
end HeteroCloud.Services
