/-
  File:      Revisions/Program.lean
  Subject:   REVISIONS OF FLASH SERVICES AND ROLLBACKS TO THEM (migrations/0023, 0024,
             crates/heterocloud-store/src/flash_operations.rs, lib.rs, crates/heterocloud-api/src/
             flash_operations.rs, flash_operation_routes.rs, crates/heterocloud-worker/src/main.rs):
             every operation that writes a Flash service, with the triggers on its table.

  Specifications are documents here. What the checks of an update make of a requested document is
  an argument of the call (`prepare`), and so are the answers of the provider and of the permission
  check. Ids of restored services are drawn before they are created; none is used twice
  (`service_quota_owners`). Notifications are left out.
-/
import HeteroCloud.Flash.Rollback

namespace HeteroCloud.Revisions

open Base Iam
open Flash (DeploymentPolicy rollbackDocument)
open Services (maxGeneration observedGeneration observedState)
open Store (ServiceInstanceState StoreError)

/-! ## 1. Tables -/

/-- A Flash service. -/
structure ServiceRow where
  id : Uuid
  organizationId : Uuid
  projectId : Uuid
  name : String
  spec : Json
  generation : Nat := 1
  state : ServiceInstanceState := .provisioning
  status : Json := .object []
  deriving DecidableEq

inductive RevisionPhase where
  | pending
  | ready
  | failed
  | rolledBack
  deriving DecidableEq, Repr

structure FlashRevision where
  serviceInstanceId : Uuid
  generation : Nat
  organizationId : Uuid
  projectId : Uuid
  principalId : Option Uuid := none
  name : String
  spec : Json
  phase : RevisionPhase
  createdAt : Int
  readyAt : Option Int
  activationStartedAt : Option Int := none
  deriving DecidableEq

structure Db where
  serviceInstances : List ServiceRow := []
  flashServiceRevisions : List FlashRevision := []

/-- The primary key of a revision. -/
def FlashRevision.key (v : FlashRevision) : Uuid × Nat := (v.serviceInstanceId, v.generation)

variable (s : ServiceRow)

def ServiceRow.key : Uuid × Nat := (s.id, s.generation)

/-! ## 2. The triggers -/

/-- The cast of a text to an integer type: nothing if it fails, and NULL for NULL. -/
def castInteger (bound : Int) : Option Json → Option (Option Int)
  | none | some .null => some none
  | some (.int n) => if -bound ≤ n ∧ n < bound then some (some n) else none
  | some (.string s) => s.toInt?.bind fun n =>
      if -bound ≤ n ∧ n < bound then some (some n) else none
  | some _ => none

def castBoolean : Option Json → Option (Option Bool)
  | none | some .null => some none
  | some (.bool b) => some (some b)
  | some _ => none

/-- `bigint` and `integer`. -/
def bigintBound : Int := 9223372036854775808
def integerBound : Int := 2147483648

/-- `coalesce(NEW.status->'status',NEW.status)`. -/
def runtime (status : Json) : Json := (status.get "status").getD status

/-- `healthy` of `capture_flash_revision`, unless a cast fails. -/
def healthy : Option Bool :=
  if s.state ≠ .ready then some false
  else do
    let observed ← castInteger bigintBound ((runtime s.status).get "observed_generation")
    if observed ≠ some (s.generation : Int) then return false
    let replicas ← castInteger integerBound ((runtime s.status).get "ready_replicas")
    if replicas.getD 0 ≤ 0 then return false
    let stopped ← castBoolean (s.spec.get "stopped")
    return !stopped.getD false

def capturedPhase : RevisionPhase :=
  if healthy s = some true then .ready else if s.state = .error then .failed else .pending

variable (now : Int)

/-- The row on a conflict. -/
def recaptured (s : ServiceRow) (v : FlashRevision) : FlashRevision :=
  { v with
    phase := if v.readyAt ≠ none then .ready else capturedPhase s
    readyAt := match v.readyAt with
      | some t => some t
      | none => if healthy s = some true then some now else none }

def captured (s : ServiceRow) : FlashRevision :=
  { serviceInstanceId := s.id, generation := s.generation, organizationId := s.organizationId,
    projectId := s.projectId, name := s.name, spec := s.spec, phase := capturedPhase s,
    createdAt := now, readyAt := if healthy s = some true then some now else none }

/-- `capture_flash_revision`. -/
def captureFlashRevision (s : ServiceRow) (t : List FlashRevision) : List FlashRevision :=
  if t.any (·.key == s.key) then updateWhere (·.key == s.key) (recaptured now s) t
  else t ++ [captured now s]

variable (actor : Option Uuid)

/-- `capture_flash_revision_actor`, for the event that goes with the change. -/
def captureFlashRevisionActor (s : ServiceRow) (t : List FlashRevision) : List FlashRevision :=
  match actor with
  | none => t
  | some principal =>
      updateWhere (·.key == s.key) (fun v => { v with principalId := some principal }) t

def record (s : ServiceRow) (t : List FlashRevision) : List FlashRevision :=
  captureFlashRevisionActor actor s (captureFlashRevision now s t)

/-! ## 3. Locks and writes -/

inductive Key where
  /-- A row under a new id, not committed yet. -/
  | fresh (id : Uuid)
  | service (id : Uuid)
  deriving DecidableEq

abbrev Locks := List (Key × LockMode)

inductive Write where
  | insertService (s : ServiceRow) (now : Int) (actor : Option Uuid)
  | updateService (s : ServiceRow) (now : Int) (actor : Option Uuid)
  | removeService (id : Uuid)
  | startActivation (key : Uuid × Nat) (now : Int)
  /-- `SET phase='rolled_back' … AND ready_at IS NULL`. -/
  | markRolledBack (key : Uuid × Nat)

def Write.apply : Write → Db → Db
  | .insertService s now actor, d => {
      serviceInstances := d.serviceInstances ++ [s]
      flashServiceRevisions := record now actor s d.flashServiceRevisions }
  | .updateService s now actor, d =>
      if d.serviceInstances.any (·.id == s.id) then {
        serviceInstances := updateWhere (·.id == s.id) (fun _ => s) d.serviceInstances
        flashServiceRevisions := record now actor s d.flashServiceRevisions }
      else d
  | .removeService id, d => { d with
      serviceInstances := d.serviceInstances.filter (·.id != id) }
  | .startActivation key now, d => { d with
      flashServiceRevisions := updateWhere (·.key == key)
        (fun v => { v with activationStartedAt := some (v.activationStartedAt.getD now) })
        d.flashServiceRevisions }
  | .markRolledBack key, d => { d with
      flashServiceRevisions := updateWhere (fun v => v.key == key && v.readyAt == none)
        (fun v => { v with phase := .rolledBack }) d.flashServiceRevisions }

def Write.needs : Write → List Key
  | .updateService s _ _ => [.service s.id]
  | .removeService id => [.service id]
  | _ => []

def Write.makes : Write → List Nat
  | .insertService s _ _ => [s.id]
  | _ => []

def ids (d : Db) : List Nat :=
  d.serviceInstances.map (·.id) ++ d.flashServiceRevisions.map (·.serviceInstanceId)

def guards : Guards Db Key Write where
  allows _ := True
  needs := Write.needs
  makes := Write.makes
  fresh := .fresh
  ids := ids

/-! ## 4. Points -/

structure NewService where
  organizationId : Uuid
  projectId : Uuid
  principalId : Uuid
  name : String
  spec : Json

/-- Why a service is updated. -/
inductive Purpose where
  | edit
  | rollback (current : ServiceRow) (target : FlashRevision) (automatic : Bool)

/-- The arguments of `update_service_instance_checked`. -/
structure ServiceUpdate where
  organizationId : Uuid
  id : Uuid
  principalId : Uuid
  project : Option Uuid
  name : String
  spec : Json
  expectedGeneration : Option Nat
  purpose : Purpose
  /-- What the checks make of the stored and the requested document. -/
  prepare : Json → Json → Option Json

structure Switch where
  organizationId : Uuid
  id : Uuid
  principalId : Uuid
  stopped : Bool
  prepare : Json → Json → Option Json

/-- A delivery that the provider has answered. -/
structure Completion where
  id : Uuid
  generation : Nat
  operationId : Uuid
  status : Json

/-- A pass of the scheduler over a service: what the provider answers, whether the principal of the
revision may update the service, and the checks of the update. -/
structure Observation where
  id : Uuid
  status : Option Json
  allowed : Bool
  prepare : Json → Json → Option Json

structure RollbackRequest where
  organizationId : Uuid
  id : Uuid
  principalId : Uuid
  generation : Nat
  expectedGeneration : Nat
  /-- `validate_flash_spec` of the document. -/
  valid : Json → Bool
  prepare : Json → Json → Option Json

inductive Call where
  -- `create_service_instance_with_id_for_user`
  | createService (n : NewService)
  -- `update_service_instance_checked`
  | updateService (q : ServiceUpdate)
  | updateWrite (q : ServiceUpdate) (s : ServiceRow)
  | updateCommit (q : ServiceUpdate) (s row : ServiceRow)
  -- `set_flash_service_stopped`
  | setFlashServiceStopped (q : Switch)
  | switchWrite (q : Switch) (s : ServiceRow)
  -- `begin_delete_service_instance`, `complete_delete_service_instance`
  | beginDelete (organization id : Uuid)
  | deleteWrite (s : ServiceRow)
  | completeDelete (id : Uuid) (generation : Nat)
  -- `mark_service_instance_ready`, `mark_service_instance_error`
  | markService (m : Completion)
  | markCommit (m : Completion) (s : ServiceRow)
  -- `observe`
  | observe (o : Observation)
  | recordFlashObservation (o : Observation) (seen : ServiceRow) (status : Json)
  | startActivation (o : Observation) (seen : ServiceRow) (status : Json) (s : ServiceRow)
  | observationCommit (o : Observation) (seen : ServiceRow) (status : Json) (s : ServiceRow)
  | observed (o : Observation) (seen : ServiceRow) (status : Json)
  | observedRevisions (o : Observation) (seen : ServiceRow) (current : FlashRevision)
  | markRolledBack (key : Uuid × Nat)
  -- `rollback`
  | rollback (q : RollbackRequest)
  | rollbackTarget (q : RollbackRequest) (current : ServiceRow)
  | commit
  | done

abbrev Statement := Outcome Key Write Call

/-- The transaction is dropped. -/
def abort : Statement := .rollback .done

/-! ## 5. Statements -/

section Statements
variable (d : Db)

def Db.service (id : Uuid) : Option ServiceRow := d.serviceInstances.find? (·.id == id)

def Db.revision (organization : Uuid) (key : Uuid × Nat) : Option FlashRevision :=
  d.flashServiceRevisions.find? fun v => v.organizationId == organization && v.key == key

variable (now : Int)

/-- The update of a service, whose trigger may fail, under the lock of its row. -/
def update (s row : ServiceRow) (now : Int) (actor : Option Uuid) (next : Call) : Statement :=
  if (healthy row).isSome then
    .stmt [(.service s.id, .exclusive)] [.updateService row now actor] next
  else abort

def createService (uuid : Nat → Nat) (n : NewService) : Statement :=
  let s : ServiceRow := { id := uuid 0, organizationId := n.organizationId,
                          projectId := n.projectId, name := n.name, spec := n.spec }
  .stmt [(.fresh (uuid 0), .exclusive)] [.insertService s now (some n.principalId)] .commit

variable (s : ServiceRow)

/-- The row after a change of its specification. -/
def ServiceRow.changed (project : Uuid) (name : String) (spec : Json) : ServiceRow :=
  { s with projectId := project, name, spec, generation := s.generation + 1, state := .updating,
           status := .object [] }

variable (q : ServiceUpdate)

def updateService : Statement :=
  match d.serviceInstances.find? fun s => s.id == q.id && s.organizationId == q.organizationId with
  | none => abort
  | some s =>
    if q.expectedGeneration.any (· != s.generation) then abort
    else if s.state = .deleting then abort
    else .stmt [(.service s.id, .exclusive)] [] (.updateWrite q s)

def updateWrite (s : ServiceRow) : Statement :=
  match q.prepare s.spec q.spec with
  | none => abort
  | some spec =>
    if s.generation + 1 > maxGeneration then abort
    else
      let row := s.changed (q.project.getD s.projectId) q.name spec
      update s row now (some q.principalId) (.updateCommit q s row)

/-- `spec["stopped"] == true`. -/
def stopped (spec : Json) : Bool := spec.get "stopped" == some (.bool true)

def setFlashServiceStopped (q : Switch) : Statement :=
  match d.serviceInstances.find? fun s => s.id == q.id && s.organizationId == q.organizationId with
  | none => abort
  | some s =>
    if s.state = .deleting then abort
    else if stopped s.spec = q.stopped then abort
    else .stmt [(.service s.id, .exclusive)] [] (.switchWrite q s)

/-- The document of a start or stop. -/
def switchedSpec (q : Switch) (spec : Json) : Option Json :=
  if q.stopped then spec.set "stopped" (.bool true)
  else q.prepare spec (spec.remove "stopped")

def switchWrite (q : Switch) (s : ServiceRow) : Statement :=
  match switchedSpec q s.spec with
  | none => abort
  | some spec =>
    if s.generation + 1 > maxGeneration then abort
    else update s (s.changed s.projectId s.name spec) now (some q.principalId) .commit

variable (organization id : Uuid)

def beginDelete : Statement :=
  match d.serviceInstances.find? fun s => s.id == id && s.organizationId == organization with
  | none => abort
  | some s =>
    if s.state = .deleting ∨ s.generation + 1 > maxGeneration then abort
    else .stmt [(.service s.id, .exclusive)] [] (.deleteWrite s)

def deleteWrite : Statement :=
  update s { s with generation := s.generation + 1, state := .deleting, status := .object [] } now
    none .commit

def completeDelete (id : Uuid) (generation : Nat) : Statement :=
  match d.serviceInstances.find? fun s => s.id == id && s.generation == generation &&
      s.state == .deleting with
  | none => abort
  | some s => .stmt [(.service s.id, .exclusive)] [.removeService s.id] .commit

variable (status : Json)

/-- `provider_reconcile_failed`. -/
def reconcileFailed : Bool :=
  (status.get "phase").bind Json.asString == some "error"

variable (m : Completion)

/-- The row of `mark_service_instance_ready`, or of `mark_service_instance_error`. -/
def Completion.mark (s : ServiceRow) : ServiceRow :=
  { s with
    state := if reconcileFailed m.status then .error else .ready
    status := .object [("operation_id", .int m.operationId), ("status", m.status)] }

def markService : Statement :=
  match d.serviceInstances.find? fun s => s.id == m.id && s.generation == m.generation with
  | none => abort
  | some s => update s (m.mark s) now none (.markCommit m s)

/-- The row of `record_flash_observation`. -/
def ServiceRow.observe : ServiceRow :=
  { s with state := observedState status, status := .object [("status", status)] }

variable (o : Observation) (seen : ServiceRow)

/-- A service of another generation is left alone, and the pass goes on. -/
def recordFlashObservation (status : Json) : Statement :=
  match d.serviceInstances.find? fun s => s.id == seen.id &&
      s.organizationId == seen.organizationId && s.generation == seen.generation &&
      s.state != .deleting with
  | none => .rollback (.observed o seen status)
  | some s => update s (s.observe status) now none (.startActivation o seen status s)

def startActivation (now : Int) (o : Observation) (seen : ServiceRow) (status : Json)
    (s : ServiceRow) : Statement :=
  if ((status.get "desired_replicas").bind Json.asNat).any (0 < ·) && !stopped seen.spec then
    .stmt [] [.startActivation seen.key now] (.observationCommit o seen status s)
  else .stmt [] [] (.observationCommit o seen status s)

/-- Whether the status says that a quota is used up. -/
def exhausted : Bool :=
  ["cpu_quota_exhausted", "memory_quota_exhausted", "gpu_quota_exhausted"].any fun key =>
    status.get key == some (.bool true)

def observed (status : Json) : Statement :=
  if stopped seen.spec || seen.state == .deleting || exhausted status then .read .done
  else match d.revision seen.organizationId seen.key with
    | none => .read .done
    | some current => .read (.observedRevisions o seen current)

def deploymentPolicy (spec : Json) : DeploymentPolicy :=
  ((spec.get "deployment").bind DeploymentPolicy.fromValue).getD {}

/-- When the deadline of a revision began to run. -/
def activation (current : FlashRevision) : Option Int :=
  match current.activationStartedAt with
  | some t => some t
  | none =>
    if (seen.spec.index "autoscaling").index "min_replicas" ≠ .int 0 then some current.createdAt
    else none

/-- Whether a revision is to be given up. -/
def overdue (clock : Int) (seen : ServiceRow) (current : FlashRevision) : Bool :=
  let policy := deploymentPolicy seen.spec
  match activation seen current with
  | none => false
  | some t => policy.autoRollback && current.readyAt == none &&
      decide ((policy.deadlineSeconds.toNat : Int) ≤ (clock - t).tdiv 1000000)

/-- `flash_revisions`: the newest thirty. -/
def Db.flashRevisions : List FlashRevision :=
  ((d.flashServiceRevisions.filter fun v => v.organizationId == organization &&
    v.serviceInstanceId == id).insertionSort fun v v' => v'.generation ≤ v.generation).take 30

def ServiceRow.rollbackTo (current : ServiceRow) (target : FlashRevision) (principal : Uuid)
    (automatic : Bool) (prepare : Json → Json → Option Json) (spec : Json) : ServiceUpdate :=
  { organizationId := current.organizationId, id := current.id, principalId := principal,
    project := none, name := current.name, spec, expectedGeneration := some current.generation,
    purpose := .rollback current target automatic, prepare }

def observedRevisions (clock : Int) (o : Observation) (seen : ServiceRow)
    (current : FlashRevision) : Statement :=
  if !overdue clock seen current then .read .done
  else match (d.flashRevisions seen.organizationId seen.id).find? fun v =>
      decide (v.generation < seen.generation) && v.phase == .ready, current.principalId with
    | some target, some principal =>
      if o.allowed then
        match rollbackDocument target.spec seen.spec with
        | some spec => .read (.updateService (seen.rollbackTo target principal true o.prepare spec))
        | none => .read .done
      else .read .done
    | _, _ => .read .done

def rollback (q : RollbackRequest) : Statement :=
  match d.service q.id with
  | none => .read .done
  | some current =>
    if current.organizationId ≠ q.organizationId ∨ current.generation ≠ q.expectedGeneration then
      .read .done
    else .read (.rollbackTarget q current)

def rollbackTarget (q : RollbackRequest) (current : ServiceRow) : Statement :=
  match d.revision q.organizationId (current.id, q.generation) with
  | none => .read .done
  | some target =>
    if target.phase ≠ .ready ∨ current.generation ≤ target.generation then .read .done
    else match rollbackDocument target.spec current.spec with
      | none => .read .done
      | some spec =>
        if q.valid spec then
          .read (.updateService (current.rollbackTo target q.principalId false q.prepare spec))
        else .read .done

/-- Where an update that has been committed goes on. -/
def ServiceUpdate.next : Call :=
  match q.purpose with
  | .rollback current _ true => .markRolledBack current.key
  | _ => .done

/-- The statement at each point. -/
def exec (clock now : Int) (uuid : Nat → Nat) (d : Db) : Call → Option Statement
  | .createService n => some (createService now uuid n)
  | .updateService q => some (updateService d q)
  | .updateWrite q s => some (updateWrite now q s)
  | .updateCommit q _ _ => some (.commit q.next)
  | .setFlashServiceStopped q => some (setFlashServiceStopped d q)
  | .switchWrite q s => some (switchWrite now q s)
  | .beginDelete organization id => some (beginDelete d organization id)
  | .deleteWrite s => some (deleteWrite now s)
  | .completeDelete id generation => some (completeDelete d id generation)
  | .markService m => some (markService d now m)
  | .markCommit _ _ => some (.commit .done)
  | .observe o => some (
      match d.service o.id, o.status with
      | some seen, some status =>
        if seen.state = .deleting ∨ observedGeneration status ≠ some (seen.generation : Int) then
          .read .done
        else .read (.recordFlashObservation o seen status)
      | _, _ => .read .done)
  | .recordFlashObservation o seen status => some (recordFlashObservation d now o seen status)
  | .startActivation o seen status s => some (startActivation now o seen status s)
  | .observationCommit o seen status _ => some (.commit (.observed o seen status))
  | .observed o seen status => some (observed d o seen status)
  | .observedRevisions o seen current => some (observedRevisions d clock o seen current)
  | .markRolledBack key => some (.stmt [] [.markRolledBack key] .commit)
  | .rollback q => some (rollback d q)
  | .rollbackTarget q current => some (rollbackTarget d q current)
  | .commit => some (.commit .done)
  | .done => none

end Statements

/-- Any statement may fail. -/
def fail : Call → Option Call
  | .done => none
  | _ => some .done

/-- An update that is not part of a rollback. -/
def Call.isStart : Call → Bool
  | .updateService q => match q.purpose with
    | .edit => true
    | .rollback _ _ _ => false
  | .createService _ | .setFlashServiceStopped _ | .beginDelete _ _ | .completeDelete _ _ |
    .markService _ | .observe _ | .rollback _ => true
  | _ => false

/-- **The program.** -/
def program : Program Db Key Write Call where
  apply := Write.apply
  exec := exec
  fail := fail
  start c := c.isStart = true
  width := 1

instance : DecidablePred program.start :=
  fun c => inferInstanceAs (Decidable (c.isStart = true))

abbrev View := World Db Key Write Call

end HeteroCloud.Revisions
