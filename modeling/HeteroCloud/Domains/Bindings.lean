/-
  File:      Domains/Bindings.lean
  Subject:   CUSTOM DOMAINS: their bindings (migrations/0021, crates/heterocloud-store/src/
             flash_domains.rs) and the reconcilers that apply them to the provider
             (crates/heterocloud-api/src/flash_domains.rs).

  A reconciler works through a batch of bindings it has read: a `PUT` for each one, or a `DELETE`
  and the release of the row. A call to the provider takes effect or not, whatever becomes of its
  answer, but a success is not answered for a call that did not take effect. The rows of a service
  go with its row in `service_instances`.
-/
import HeteroCloud.Base.Atomic
import HeteroCloud.Services.Schema

namespace HeteroCloud.Domains

open Base.Atomic Iam Services List
open Base (Json UniqueKey updateWhere orderBy orderBy_perm mem_updateWhere)
open Store (StoreError)

/-! ## 1. Rows and calls -/

structure FlashDomainBinding where
  id : Uuid
  organizationId : Uuid
  serviceInstanceId : Uuid
  principalId : Uuid
  hostname : String
  verificationValue : String
  deleteRequested : Bool := false
  reconcilePending : Bool := true
  createdAt : Nat
  updatedAt : Nat
  deriving DecidableEq, Repr

inductive ProviderCall where
  | put
  | delete
  deriving DecidableEq, Repr

structure Tables where
  services : List ServiceRow
  flashDomainBindings : List FlashDomainBinding
  /-- The identifiers given out; none is given out twice. -/
  drawn : List Uuid
  /-- The calls for each hostname that took effect at the provider, newest first. -/
  effective : List (String × ProviderCall)

variable (t : Tables)

/-- The last call for the hostname that took effect. -/
def Tables.lastCall (hostname : String) : Option ProviderCall :=
  (t.effective.find? fun c => c.1 == hostname).map (·.2)

structure Reservation where
  organization : Uuid
  service : Uuid
  principal : Uuid
  hostname : String

structure Setup where
  /-- `Uuid::simple`. -/
  simple : Uuid → String

/-- A public web service behind the forwarding proxy. -/
def acceptsDomains (s : ServiceRow) : Bool :=
  match s.spec with
  | .flash spec => s.state != .deleting && spec.exposure.endpointMode == .web &&
      spec.exposure.exposureType == .external && spec.exposure.trafficMode == .forwarded
  | _ => false

/-- `reserve_flash_domain` up to its `INSERT`: the binding there is, or that there is none. -/
def reserveFlashDomain (q : Reservation) (t : Tables) :
    Except StoreError (Option FlashDomainBinding) :=
  match t.services.find? fun s => s.id == q.service && s.organizationId == q.organization with
  | none => .error .notFound
  | some s =>
    if !acceptsDomains s then
      .error (.requestRejected "Custom domains require a public HTTP/HTTPS Flash service.")
    else match t.flashDomainBindings.find? fun b => b.hostname == q.hostname with
    | some existing =>
      if existing.organizationId == q.organization && existing.serviceInstanceId == q.service &&
          !existing.deleteRequested then .ok (some existing)
      else .error .alreadyExists
    | none =>
      if 128 ≤ t.flashDomainBindings.length ∨
          8 ≤ t.flashDomainBindings.countP fun b => b.serviceInstanceId == q.service then
        .error (.requestRejected "Custom domain capacity reached (8 per service).")
      else .ok none

variable (now : Nat) (u : Setup)

def Reservation.binding (q : Reservation) (now : Nat) (id second : Uuid) : FlashDomainBinding where
  id := id
  organizationId := q.organization
  serviceInstanceId := q.service
  principalId := q.principal
  hostname := q.hostname
  verificationValue := "heterocloud-domain=" ++ u.simple id ++ ":" ++ u.simple second
  createdAt := now
  updatedAt := now

variable (b : FlashDomainBinding)

/-- The `INSERT` with the constraints of the table. -/
def insertBinding (t : Tables) : Except StoreError Tables :=
  if b.hostname.length < 3 ∨ 253 < b.hostname.length ∨ b.hostname.toLower ≠ b.hostname then
    .error (.sql false)
  else if !t.services.any fun s => s.id == b.serviceInstanceId then .error (.sql false)
  else if t.flashDomainBindings.any fun c => c.hostname == b.hostname then .error (.sql true)
  else .ok { t with
    flashDomainBindings := t.flashDomainBindings ++ [b]
    drawn := b.id :: t.drawn }

/-- `request_flash_domain_delete`. -/
def requestFlashDomainDelete (organization service id : Uuid) (t : Tables) : Except StoreError
    Tables :=
  let sel (b : FlashDomainBinding) :=
    b.id == id && b.organizationId == organization && b.serviceInstanceId == service
  if t.flashDomainBindings.any sel then
    .ok { t with
      flashDomainBindings := updateWhere sel (fun b =>
        { b with deleteRequested := true, reconcilePending := true, updatedAt := now })
        t.flashDomainBindings }
  else .error .notFound

/-- `pending_flash_domains`; rows of the same time come in the table's order. -/
def pendingFlashDomains : List FlashDomainBinding :=
  (orderBy (·.updatedAt) t.flashDomainBindings).take 64

variable (id : Uuid)

/-- `mark_flash_domain_attempted`. -/
def markFlashDomainAttempted (t : Tables) : Tables :=
  { t with
    flashDomainBindings :=
      updateWhere (·.id == id) (fun b => { b with updatedAt := now }) t.flashDomainBindings }

/-- `mark_flash_domain_synced`. -/
def markFlashDomainSynced (t : Tables) : Tables :=
  { t with
    flashDomainBindings :=
      updateWhere (fun b => b.id == id && !b.deleteRequested)
        (fun b => { b with reconcilePending := false, updatedAt := now }) t.flashDomainBindings }

/-- `release_flash_domain`. -/
def releaseFlashDomain (t : Tables) : Tables :=
  { t with
    flashDomainBindings :=
      t.flashDomainBindings.filter fun b => !(b.id == id && b.deleteRequested) }

structure ServiceRemoval where
  id : Uuid
  provider : Provider
  generation : Nat

variable (r : ServiceRemoval)

def ServiceRemoval.removes (s : ServiceRow) : Bool :=
  s.id == r.id && s.generation == r.generation && s.provider == r.provider && s.state == .deleting

/-- `complete_delete_service_instance`, with the rows that refer to the service. -/
def completeDeleteServiceInstance (t : Tables) : Tables :=
  if t.services.any r.removes then
    { t with
      services := t.services.filter fun s => !r.removes s
      flashDomainBindings := t.flashDomainBindings.filter fun b => b.serviceInstanceId != r.id }
  else t

/-! ## 2. The program -/

inductive Lock where
  /-- The advisory lock of reservations. -/
  | reservations
  /-- A row of `service_instances`. -/
  | service (id : Uuid)
  deriving DecidableEq

inductive Point where
  | reserve (q : Reservation)
  | insert (q : Reservation)
  | requestDelete (organization service id : Uuid)
  | completeDelete (r : ServiceRemoval)
  | remove (r : ServiceRemoval)
  /-- Services are created and changed. -/
  | change
  /-- Waits for the next tick. -/
  | reconciler
  | next (batch : List FlashDomainBinding)
  | load (binding : FlashDomainBinding) (rest : List FlashDomainBinding)
  | ask (service : ServiceRow) (binding : FlashDomainBinding) (rest : List FlashDomainBinding)
  | release (binding : FlashDomainBinding) (rest : List FlashDomainBinding)
  | synced (binding : FlashDomainBinding) (rest : List FlashDomainBinding)
  | reserved (result : Except StoreError FlashDomainBinding)
  | done (result : Except StoreError Unit)

inductive Choice where
  /-- The store is called at `now`; a new row takes the identifiers. -/
  | call (now : Nat) (id second : Uuid)
  | fail
  /-- The provider is called: whether the call takes effect, and whether success is answered. -/
  | provider (effect success : Bool)
  | change (services : List ServiceRow)

/-- A call to the provider. -/
def Tables.calls (effect : Bool) (hostname : String) (c : ProviderCall) : Tables :=
  if effect then { t with effective := (hostname, c) :: t.effective } else t

def actReconciler : Point → Choice → Option (Tables × Point)
  | .reconciler, .call _ _ _ => some (t, .next (pendingFlashDomains t))
  | .reconciler, .fail => some (t, .reconciler)
  | .next [], .call _ _ _ => some (t, .reconciler)
  | .next (b :: rest), .call now _ _ => some (markFlashDomainAttempted now b.id t, .load b rest)
  | .next (b :: rest), .fail => some (t, .load b rest)
  | .load b rest, .call _ _ _ =>
      match t.services.find? fun s => s.id == b.serviceInstanceId with
      | none => some (t, .next rest)
      | some s =>
          if s.organizationId ≠ b.organizationId ∨ s.provider ≠ .flash then some (t, .next rest)
          else some (t, .ask s b rest)
  | .load _ rest, .fail => some (t, .next rest)
  | .ask _ b rest, .provider effect success =>
      if success && !effect then none
      else if b.deleteRequested then
        some (t.calls effect b.hostname .delete, if success then .release b rest else .next rest)
      else
        some (t.calls effect b.hostname .put, if success then .synced b rest else .next rest)
  | .release b rest, .call _ _ _ => some (releaseFlashDomain b.id t, .next rest)
  | .release _ rest, .fail => some (t, .next rest)
  | .synced b rest, .call now _ _ => some (markFlashDomainSynced now b.id t, .next rest)
  | .synced _ rest, .fail => some (t, .next rest)
  | _, _ => none

def act (a : Choice) (t : Tables) (l : Point) : Option (Tables × Point) :=
  match l, a with
  | .reserve q, .call _ _ _ =>
      match reserveFlashDomain q t with
      | .error e => some (t, .reserved (.error e))
      | .ok (some existing) => some (t, .reserved (.ok existing))
      | .ok none => some (t, .insert q)
  | .reserve _, .fail => some (t, .reserved (.error (.sql false)))
  | .insert q, .call now id second =>
      if t.drawn.contains id then none
      else match insertBinding (q.binding u now id second) t with
      | .error e => some (t, .reserved (.error e))
      | .ok t' => some (t', .reserved (.ok (q.binding u now id second)))
  | .insert _, .fail => some (t, .reserved (.error (.sql false)))
  | .requestDelete o s id, .call now _ _ =>
      match requestFlashDomainDelete now o s id t with
      | .error e => some (t, .done (.error e))
      | .ok t' => some (t', .done (.ok ()))
  | .requestDelete _ _ _, .fail => some (t, .done (.error (.sql false)))
  | .completeDelete r, .call _ _ _ => some (t, .remove r)
  | .completeDelete _, .fail => some (t, .done (.error (.sql false)))
  | .remove r, .call _ _ _ => some (completeDeleteServiceInstance r t, .done (.ok ()))
  | .remove _, .fail => some (t, .done (.error (.sql false)))
  | .change, .change services =>
      if t.services.all fun s => services.any fun s' => s'.id == s.id then
        some ({ t with services := services }, .done (.ok ()))
      else none
  | l, a => actReconciler t l a

def isStart : Point → Bool
  | .reserve _ | .requestDelete _ _ _ | .completeDelete _ | .change | .reconciler => true
  | _ => false

def locks : Point → List Lock
  | .insert q => [.reservations, .service q.service]
  | .remove r => [.service r.id]
  | _ => []

def program : Program Tables Point Choice Lock where
  start := isStart
  locks := locks
  act := act u

/-! ## 3. What holds of the bindings -/

/-- The bindings in a reconciler's hands. -/
def Point.batch : Point → List FlashDomainBinding
  | .next batch => batch
  | .load b rest | .ask _ b rest | .release b rest | .synced b rest => b :: rest
  | _ => []

/-- What a row keeps. -/
structure Later (b b' : FlashDomainBinding) : Prop where
  id : b'.id = b.id
  hostname : b'.hostname = b.hostname
  serviceInstanceId : b'.serviceInstanceId = b.serviceInstanceId
  deleteRequested : b.deleteRequested → b'.deleteRequested

structure Inv : Prop where
  unique : UniqueKey (·.id) t.flashDomainBindings
  hostnames : UniqueKey (·.hostname) t.flashDomainBindings
  drawn : ∀ b ∈ t.flashDomainBindings, b.id ∈ t.drawn

/-- A binding that was read: its row, if it is still there, is a later version. -/
structure Known : Prop where
  drawn : b.id ∈ t.drawn
  row : ∀ row ∈ t.flashDomainBindings, row.id = b.id → Later b row

def At (l : Point) : Prop := ∀ b ∈ l.batch, Known t b

/-- **What an action does to the bindings**: rows change, go, or one comes under a new id. -/
structure Moves (t t' : Tables) : Prop where
  inv : Inv t'
  drawn : t.drawn ⊆ t'.drawn
  rows : ∀ b' ∈ t'.flashDomainBindings,
    (∃ b ∈ t.flashDomainBindings, Later b b') ∨ b'.id ∉ t.drawn

def Point.releases : Point → Bool
  | .release _ _ => true
  | _ => false

/-- Where the answer of the provider leads. -/
def FlashDomainBinding.applied (success : Bool) (rest : List FlashDomainBinding) : Point :=
  if success then if b.deleteRequested then .release b rest else .synced b rest else .next rest

/-- **What one action does**: what it writes, and where the call goes on. -/
inductive Does (t : Tables) (l : Point) (a : Choice) : Tables → Point → Prop where
  | nothing (l' : Point) (hl : l'.batch ⊆ l.batch) (hr : l'.releases = false) : Does t l a t l'
  | reads : Does t l a t (.next (pendingFlashDomains t))
  | updates (p : FlashDomainBinding → Bool) (f : FlashDomainBinding → FlashDomainBinding)
      (l' : Point) (hf : ∀ b, Later b (f b)) (hl : l'.batch ⊆ l.batch) (hr : l'.releases = false) :
      Does t l a { t with flashDomainBindings := updateWhere p f t.flashDomainBindings } l'
  | inserts (b : FlashDomainBinding) (t' : Tables) (hid : b.id ∉ t.drawn)
      (hi : insertBinding b t = .ok t') : Does t l a t' (.reserved (.ok b))
  | changes (services : List ServiceRow) :
      Does t l a { t with services := services } (.done (.ok ()))
  | removes (r : ServiceRemoval) (now : Nat) (id second : Uuid) (hl : l = .remove r)
      (ha : a = .call now id second) :
      Does t l a (completeDeleteServiceInstance r t) (.done (.ok ()))
  | calls (s : ServiceRow) (b : FlashDomainBinding) (rest : List FlashDomainBinding)
      (effect success : Bool) (hl : l = .ask s b rest) (ha : a = .provider effect success)
      (he : success = true → effect = true) :
      Does t l a (t.calls effect b.hostname (if b.deleteRequested then .delete else .put))
        (b.applied success rest)
  | releases (b : FlashDomainBinding) (rest : List FlashDomainBinding) (hl : l = .release b rest) :
      Does t l a (releaseFlashDomain b.id t) (.next rest)

section Actions
variable {u : Setup} {t t' : Tables} {l l' : Point} {a : Choice} {b b' b'' : FlashDomainBinding}
  {p : FlashDomainBinding → Bool} {f : FlashDomainBinding → FlashDomainBinding}

theorem Later.refl (b : FlashDomainBinding) : Later b b := ⟨rfl, rfl, rfl, fun h => h⟩

theorem Later.trans (h : Later b b') (h' : Later b' b'') : Later b b'' :=
  ⟨h'.id.trans h.id, h'.hostname.trans h.hostname,
    h'.serviceInstanceId.trans h.serviceInstanceId,
    fun hb => h'.deleteRequested (h.deleteRequested hb)⟩

/-- The bindings stay as they are. -/
theorem Moves.same (h : Inv t) (hb : t'.flashDomainBindings = t.flashDomainBindings)
    (hd : t'.drawn = t.drawn) : Moves t t' := by
  refine ⟨⟨?_, ?_, ?_⟩, ?_, fun b' hb' => ?_⟩
  · rw [hb]
    exact h.unique
  · rw [hb]
    exact h.hostnames
  · rw [hb, hd]
    exact h.drawn
  · rw [hd]
    exact List.Subset.refl _
  · rw [hb] at hb'
    exact .inl ⟨b', hb', Later.refl b'⟩

theorem Moves.update (h : Inv t) (hf : ∀ b, Later b (f b)) :
    Moves t { t with flashDomainBindings := updateWhere p f t.flashDomainBindings } := by
  refine ⟨⟨h.unique.update fun b => (hf b).id, h.hostnames.update fun b => (hf b).hostname,
    fun b hb => ?_⟩, List.Subset.refl _, fun b' hb' => ?_⟩
  · obtain ⟨c, hc, ⟨_, rfl⟩ | ⟨_, rfl⟩⟩ := mem_updateWhere hb
    · rw [(hf c).id]
      exact h.drawn c hc
    · exact h.drawn b hc
  · obtain ⟨c, hc, ⟨_, rfl⟩ | ⟨_, rfl⟩⟩ := mem_updateWhere hb'
    · exact .inl ⟨c, hc, hf c⟩
    · exact .inl ⟨b', hc, Later.refl b'⟩

theorem Moves.filter (h : Inv t) (hb : t'.flashDomainBindings = t.flashDomainBindings.filter p)
    (hd : t'.drawn = t.drawn) : Moves t t' := by
  refine ⟨⟨?_, ?_, fun b hmem => ?_⟩, ?_, fun b' hmem => ?_⟩
  · rw [hb]
    exact h.unique.filter p
  · rw [hb]
    exact h.hostnames.filter p
  · rw [hb] at hmem
    rw [hd]
    exact h.drawn b (mem_of_mem_filter hmem)
  · rw [hd]
    exact List.Subset.refl _
  · rw [hb] at hmem
    exact .inl ⟨b', mem_of_mem_filter hmem, Later.refl b'⟩

theorem Moves.insert (h : Inv t) (hid : b.id ∉ t.drawn) (hi : insertBinding b t = .ok t') :
    Moves t t' := by
  unfold insertBinding at hi
  split at hi
  · cases hi
  split at hi
  · cases hi
  split at hi
  · cases hi
  rename_i hhost
  cases hi
  refine ⟨⟨h.unique.insert fun c hc he => ?_, h.hostnames.insert fun c hc he => ?_, fun c hc => ?_⟩,
    subset_cons_self _ _, fun c hc => ?_⟩
  · exact hid (he ▸ h.drawn c hc)
  · exact hhost (any_eq_true.mpr ⟨c, hc, beq_iff_eq.mpr he⟩)
  · rcases mem_append.mp hc with hc | hc
    · exact mem_cons_of_mem _ (h.drawn c hc)
    · rw [mem_singleton.mp hc]
      exact mem_cons_self
  · rcases mem_append.mp hc with hc | hc
    · exact .inl ⟨c, hc, Later.refl c⟩
    · rw [mem_singleton.mp hc]
      exact .inr hid

theorem Known.moves (h : Known t b) (hm : Moves t t') : Known t' b := by
  refine ⟨hm.drawn h.drawn, fun row' hrow' hid => ?_⟩
  rcases hm.rows row' hrow' with ⟨row, hrow, hl⟩ | hnew
  · exact (h.row row hrow (hl.id.symm.trans hid)).trans hl
  · rw [hid] at hnew
    exact absurd h.drawn hnew

theorem moves_remove (h : Inv t) {r : ServiceRemoval} :
    Moves t (completeDeleteServiceInstance r t) := by
  unfold completeDeleteServiceInstance
  split
  · exact Moves.filter h rfl rfl
  · exact Moves.same h rfl rfl

theorem moves_calls (h : Inv t) {effect : Bool} {hostname : String} {c : ProviderCall} :
    Moves t (t.calls effect hostname c) := by
  unfold Tables.calls
  split
  · exact Moves.same h rfl rfl
  · exact Moves.same h rfl rfl

/-- A row that was just read. -/
theorem known_pending (h : Inv t) (hb : b ∈ pendingFlashDomains t) : Known t b := by
  have hmem : b ∈ t.flashDomainBindings :=
    (orderBy_perm _ _).mem_iff.mp (mem_of_mem_take hb)
  refine ⟨h.drawn b hmem, fun row hrow hid => ?_⟩
  rw [h.unique.eq hrow hmem hid]
  exact Later.refl b

theorem actReconciler_does (ha : actReconciler t l a = some (t', l')) : Does t l a t' l' := by
  unfold actReconciler at ha
  split at ha
  · cases ha
    exact .reads
  · cases ha
    exact .nothing _ (List.Subset.refl _) rfl
  · cases ha
    exact .nothing _ (List.Subset.refl _) rfl
  · cases ha
    exact .updates _ _ _ (fun b => ⟨rfl, rfl, rfl, fun h => h⟩) (List.Subset.refl _) rfl
  · cases ha
    exact .nothing _ (List.Subset.refl _) rfl
  · split at ha
    · cases ha
      exact .nothing _ (subset_cons_self _ _) rfl
    split at ha
    · cases ha
      exact .nothing _ (subset_cons_self _ _) rfl
    · cases ha
      exact .nothing _ (List.Subset.refl _) rfl
  · cases ha
    exact .nothing _ (subset_cons_self _ _) rfl
  · rename_i s b rest effect success
    split at ha
    · cases ha
    rename_i hans
    have he : success = true → effect = true := by simpa using hans
    have hcall := Does.calls (t := t) s b rest effect success rfl rfl he
    unfold FlashDomainBinding.applied at hcall
    split at ha
    · rename_i hd
      cases ha
      rwa [if_pos hd, if_pos hd] at hcall
    · rename_i hd
      cases ha
      rwa [if_neg hd, if_neg hd] at hcall
  · cases ha
    exact .releases _ _ rfl
  · cases ha
    exact .nothing _ (subset_cons_self _ _) rfl
  · cases ha
    exact .updates _ _ _ (fun b => ⟨rfl, rfl, rfl, fun h => h⟩) (subset_cons_self _ _) rfl
  · cases ha
    exact .nothing _ (subset_cons_self _ _) rfl
  · cases ha

theorem act_does (ha : act u a t l = some (t', l')) : Does t l a t' l' := by
  unfold act at ha
  split at ha
  · split at ha <;> cases ha <;> exact .nothing _ (nil_subset _) rfl
  · cases ha
    exact .nothing _ (nil_subset _) rfl
  · split at ha
    · cases ha
    rename_i hid
    split at ha
    · cases ha
      exact .nothing _ (nil_subset _) rfl
    rename_i hi
    cases ha
    exact .inserts _ _ (fun hm => hid (contains_iff_mem.mpr hm)) hi
  · cases ha
    exact .nothing _ (nil_subset _) rfl
  · split at ha
    · cases ha
      exact .nothing _ (nil_subset _) rfl
    rename_i hreq
    cases ha
    unfold requestFlashDomainDelete at hreq
    dsimp only at hreq
    split at hreq
    · cases hreq
      exact .updates _ _ _ (fun b => ⟨rfl, rfl, rfl, fun _ => rfl⟩) (nil_subset _) rfl
    · cases hreq
  · cases ha
    exact .nothing _ (nil_subset _) rfl
  · cases ha
    exact .nothing _ (nil_subset _) rfl
  · cases ha
    exact .nothing _ (nil_subset _) rfl
  · cases ha
    exact .removes _ _ _ _ rfl rfl
  · cases ha
    exact .nothing _ (nil_subset _) rfl
  · split at ha
    · cases ha
      exact .changes _
    · cases ha
  · exact actReconciler_does ha

/-- **One action**: the bindings, and those it keeps in its hands. -/
theorem act_moves (h : Inv t) (ha : act u a t l = some (t', l')) :
    Moves t t' ∧ (l'.batch ⊆ l.batch ∨ ∀ b ∈ l'.batch, Known t b) := by
  cases act_does ha with
  | nothing _ hl => exact ⟨Moves.same h rfl rfl, .inl hl⟩
  | reads => exact ⟨Moves.same h rfl rfl, .inr fun b hb => known_pending h hb⟩
  | updates _ _ _ hf hl => exact ⟨Moves.update h hf, .inl hl⟩
  | inserts b _ hid hi => exact ⟨Moves.insert h hid hi, .inl (nil_subset _)⟩
  | changes => exact ⟨Moves.same h rfl rfl, .inl (nil_subset _)⟩
  | removes => exact ⟨moves_remove h, .inl (nil_subset _)⟩
  | calls _ _ _ _ _ hl =>
    subst hl
    refine ⟨moves_calls h, .inl ?_⟩
    unfold FlashDomainBinding.applied
    split_ifs
    · exact List.Subset.refl _
    · exact List.Subset.refl _
    · exact subset_cons_self _ _
  | releases _ _ hl =>
    subst hl
    exact ⟨Moves.filter h rfl rfl, .inl (subset_cons_self _ _)⟩

/-- **The bindings under any number of calls.** -/
theorem outline (u : Setup) :
    Outline (program u) (fun _ _ _ => True) (fun _ _ => True) Inv At where
  start {t l} hs _ := by
    have hempty : l.batch = [] := by
      cases l <;> first | rfl | cases hs
    intro b hb
    rw [hempty] at hb
    cases hb
  act hi hl _ ha := by
    obtain ⟨hm, hbatch⟩ := act_moves hi ha
    refine ⟨hm.inv, fun b hb => ?_⟩
    rcases hbatch with hsub | hknown
    · exact (hl b (hsub hb)).moves hm
    · exact (hknown b hb).moves hm
  stable hi _ _ ha _ hm := fun b hb => (hm b hb).moves (act_moves hi ha).1

end Actions

/-! ## 4. What holds of the provider -/

/-- **The condition on an action.** A `PUT` that takes effect finds the binding there and not in
deletion, and a service does not go while one of its domains is active. -/
def Admitted : Point → Choice → Prop
  | .ask _ b _, .provider true _ => b.deleteRequested = false →
      ∃ row ∈ t.flashDomainBindings, row.id = b.id ∧ row.deleteRequested = false
  | .remove r, .call _ _ _ => t.services.any r.removes = true →
      ∀ b ∈ t.flashDomainBindings, b.serviceInstanceId = r.id →
        t.lastCall b.hostname ≠ some .put
  | _, _ => True

/-- A domain that is active has a binding. -/
def Bound : Prop :=
  ∀ hostname, t.lastCall hostname = some .put → ∃ b ∈ t.flashDomainBindings, b.hostname = hostname

/-- A domain about to be released is not active. -/
structure Clear (l : Point) : Prop where
  known : At t l
  clear : ∀ b rest, l = .release b rest → b.deleteRequested = true ∧
    ∀ row ∈ t.flashDomainBindings, row.id = b.id → t.lastCall b.hostname ≠ some .put

section Provider
variable {u : Setup} {t t' : Tables} {l l' m : Point} {a : Choice} {b : FlashDomainBinding}

theorem lastCall_calls {effect : Bool} {hostname h : String} {c : ProviderCall}
    (hc : (t.calls effect hostname c).lastCall h = some .put) :
    t.lastCall h = some .put ∨ (effect = true ∧ c = .put ∧ h = hostname) := by
  unfold Tables.calls at hc
  split at hc
  · rename_i heff
    unfold Tables.lastCall at hc
    rw [find?_cons] at hc
    split at hc
    · rename_i he
      exact .inr ⟨heff, Option.some.inj hc, (beq_iff_eq.mp he).symm⟩
    · exact .inl hc
  · exact .inl hc

/-- **How the log of the provider changes**: only by a call of a reconciler. -/
theorem act_effective (ha : act u a t l = some (t', l')) : t'.effective = t.effective ∨
    ∃ s b rest effect success, l = .ask s b rest ∧ a = .provider effect success ∧
      t' = t.calls effect b.hostname (if b.deleteRequested then .delete else .put) := by
  cases act_does ha with
  | nothing | reads | updates | changes | releases => exact .inl rfl
  | inserts b _ _ hi =>
    unfold insertBinding at hi
    split_ifs at hi
    cases hi
    exact .inl rfl
  | removes =>
    unfold completeDeleteServiceInstance
    split
    · exact .inl rfl
    · exact .inl rfl
  | calls s b rest effect success hl hc => exact .inr ⟨s, b, rest, effect, success, hl, hc, rfl⟩

/-- **How a domain becomes active**: by the `PUT` of a binding. -/
theorem act_put (ha : act u a t l = some (t', l')) {h : String}
    (hput : t'.lastCall h = some .put) : t.lastCall h = some .put ∨
      ∃ s b rest success, l = .ask s b rest ∧ a = .provider true success ∧
        b.deleteRequested = false ∧ b.hostname = h ∧
        t'.flashDomainBindings = t.flashDomainBindings := by
  rcases act_effective ha with he | ⟨s, b, rest, effect, success, hl, hc, rfl⟩
  · unfold Tables.lastCall at hput ⊢
    rw [← he]
    exact .inl hput
  rcases lastCall_calls hput with hold | ⟨rfl, hcall, rfl⟩
  · exact .inl hold
  have hd : b.deleteRequested = false := by
    by_contra hd
    rw [Bool.not_eq_false] at hd
    rw [if_pos hd] at hcall
    cases hcall
  exact .inr ⟨s, b, rest, success, hl, hc, hd, rfl, rfl⟩

/-- A row after an update of rows. -/
theorem kept_update {p : FlashDomainBinding → Bool} {f : FlashDomainBinding → FlashDomainBinding}
    (hf : ∀ b, (f b).hostname = b.hostname) (hb : b ∈ t.flashDomainBindings) :
    ∃ b' ∈ updateWhere p f t.flashDomainBindings, b'.hostname = b.hostname := by
  refine ⟨_, mem_map_of_mem hb, ?_⟩
  by_cases hp : p b = true
  · rw [if_pos hp, hf]
  · rw [if_neg hp]

/-- **How a binding goes**: it is released, or its service goes. -/
theorem act_loses (ha : act u a t l = some (t', l')) (hb : b ∈ t.flashDomainBindings) :
    (∃ b' ∈ t'.flashDomainBindings, b'.hostname = b.hostname) ∨
    (∃ c rest, l = .release c rest ∧ c.id = b.id) ∨
    ∃ r now id second, l = .remove r ∧ a = .call now id second ∧
      t.services.any r.removes = true ∧ b.serviceInstanceId = r.id := by
  have hkept : ∃ b' ∈ t.flashDomainBindings, b'.hostname = b.hostname := ⟨b, hb, rfl⟩
  cases act_does ha with
  | nothing | reads | changes => exact .inl hkept
  | updates p f _ hf => exact .inl (kept_update (fun b => (hf b).hostname) hb)
  | inserts c _ _ hi =>
    unfold insertBinding at hi
    split_ifs at hi
    cases hi
    exact .inl ⟨b, mem_append_left _ hb, rfl⟩
  | removes r now id second hl hc =>
    unfold completeDeleteServiceInstance
    split
    · rename_i hany
      by_cases hs : b.serviceInstanceId = r.id
      · exact .inr (.inr ⟨r, now, id, second, hl, hc, hany, hs⟩)
      · exact .inl ⟨b, mem_filter.mpr ⟨hb, bne_iff_ne.mpr hs⟩, rfl⟩
    · exact .inl hkept
  | calls =>
    unfold Tables.calls
    split
    · exact .inl hkept
    · exact .inl hkept
  | releases c rest hl =>
    by_cases hc : (b.id == c.id && b.deleteRequested) = true
    · rw [Bool.and_eq_true, beq_iff_eq] at hc
      exact .inr (.inl ⟨c, rest, hl, hc.1.symm⟩)
    · exact .inl ⟨b, mem_filter.mpr ⟨hb, by rw [Bool.eq_false_iff.mpr hc]; rfl⟩, rfl⟩

/-- How a reconciler comes to release a binding. -/
theorem release_from {rest : List FlashDomainBinding}
    (ha : act u a t l = some (t', .release b rest)) :
    b.deleteRequested = true ∧ t' = t.calls true b.hostname .delete := by
  generalize hl : Point.release b rest = l' at ha
  cases act_does ha with
  | nothing _ _ hr | updates _ _ _ _ _ hr =>
    rw [← hl] at hr
    cases hr
  | calls _ _ _ _ _ _ _ he =>
    unfold FlashDomainBinding.applied at hl
    split_ifs at hl with hs hd
    · cases hl
      rw [he hs, if_pos hd]
      exact ⟨hd, rfl⟩
  | _ => cases hl

/-- **A step keeps active domains bound.** -/
theorem Bound.step (h : Bound t) (hl : Clear t l) (hok : Admitted t l a)
    (ha : act u a t l = some (t', l')) : Bound t' := by
  intro hostname hput
  rcases act_put ha hput with hold | ⟨s, b, rest, success, rfl, rfl, hd, rfl, hsame⟩
  · obtain ⟨b, hb, hhost⟩ := h hostname hold
    rcases act_loses ha hb with ⟨b', hb', he⟩ | ⟨c, rest, rfl, hid⟩ |
      ⟨r, now, id, second, rfl, rfl, hany, hs⟩
    · exact ⟨b', hb', he.trans hhost⟩
    · -- the row released belongs to a domain that is not active
      have hknown := (hl.known c mem_cons_self).row b hb hid.symm
      have hclear := (hl.clear c rest rfl).2 b hb hid.symm
      rw [← hknown.hostname, hhost] at hclear
      exact absurd hold hclear
    · rw [← hhost] at hold
      exact absurd hold (hok hany b hb hs)
  · obtain ⟨row, hrow, hid, _⟩ := hok hd
    have hknown := (hl.known b mem_cons_self).row row hrow hid
    exact ⟨row, hsame ▸ hrow, hknown.hostname⟩

/-- **A domain in deletion stays clear.** -/
theorem Clear.stable (hm : Clear t m) (hi : Inv t) (hl : Clear t l) (hok : Admitted t l a)
    (ha : act u a t l = some (t', l')) : Clear t' m := by
  have hmoves := (act_moves hi ha).1
  refine ⟨fun b hb => (hm.known b hb).moves hmoves, fun c rest he => ?_⟩
  obtain ⟨hreq, hclear⟩ := hm.clear c rest he
  subst he
  have hc := hm.known c mem_cons_self
  refine ⟨hreq, fun row' hrow' hid hput => ?_⟩
  -- the row was there before
  obtain ⟨row, hrow, hlater⟩ : ∃ row ∈ t.flashDomainBindings, Later row row' := by
    rcases hmoves.rows row' hrow' with h | hnew
    · exact h
    · rw [hid] at hnew
      exact absurd hc.drawn hnew
  have hrid : row.id = c.id := hlater.id.symm.trans hid
  rcases act_put ha hput with hold | ⟨s, b, rest', success, rfl, rfl, hd, hhost, _⟩
  · exact hclear row hrow hrid hold
  -- a `PUT` would need a second binding of the hostname
  obtain ⟨row₂, hrow₂, hid₂, hd₂⟩ := hok hd
  have hl₂ := (hl.known b mem_cons_self).row row₂ hrow₂ hid₂
  have hl₁ := hc.row row hrow hrid
  have hname : row₂.hostname = row.hostname := by
    rw [hl₂.hostname, hl₁.hostname, hhost]
  have hsame : row₂ = row := hi.hostnames.eq hrow₂ hrow hname
  have hreq' := hl₁.deleteRequested hreq
  rw [← hsame, hd₂] at hreq'
  cases hreq'

theorem outline_admitted (u : Setup) :
    Outline (program u) Admitted (fun _ _ => True) (fun t => Inv t ∧ Bound t) Clear where
  start {t l} hs hi := by
    refine ⟨(outline u).start hs hi.1, fun b rest he => ?_⟩
    rw [he] at hs
    cases hs
  act {a t l t' l'} hi hl hok ha := by
    obtain ⟨hinv, hknown⟩ := (outline u).act hi.1 hl.known trivial ha
    refine ⟨⟨hinv, hi.2.step hl hok ha⟩, hknown, fun b rest he => ?_⟩
    subst he
    obtain ⟨hreq, rfl⟩ := release_from ha
    refine ⟨hreq, fun _ _ _ hput => ?_⟩
    simp [Tables.calls, Tables.lastCall] at hput
  stable hi hl hok ha _ hm := hm.stable hi.1 hl hok ha

end Provider

/-! ## 5. Runs -/

/-- No bindings, and no calls to the provider. -/
structure Initial : Prop where
  bindings : t.flashDomainBindings = []
  effective : t.effective = []

section Runs
variable {u : Setup} {t : Tables} {past : List (Event Tables Point Choice)}
  {σ : System Tables Point}

theorem Initial.inv (h : Initial t) : Inv t := by
  refine ⟨?_, ?_, fun b hb => ?_⟩
  · rw [h.bindings]
    exact nodup_nil
  · rw [h.bindings]
    exact nodup_nil
  · rw [h.bindings] at hb
    cases hb

theorem Initial.bound (h : Initial t) : Bound t := by
  intro hostname hput
  unfold Tables.lastCall at hput
  rw [h.effective] at hput
  cases hput

/-- **Domains are released when they are not active.** In every state of every run a hostname has
one binding at most; and if every action of the run is admitted, a hostname without a binding is
not active. -/
theorem domains_released (hr : Run (program u) (System.quiet t) past σ) (h₀ : Initial t) :
    (∀ b ∈ σ.shared.flashDomainBindings, ∀ b' ∈ σ.shared.flashDomainBindings,
      b.hostname = b'.hostname → b = b') ∧
    ((∀ e ∈ past, e.Admits Admitted) → ∀ hostname,
      (∀ b ∈ σ.shared.flashDomainBindings, b.hostname ≠ hostname) →
        σ.shared.lastCall hostname ≠ some .put) := by
  have hinv := ((outline u).run_any hr (Holds.quiet h₀.inv)).inv
  refine ⟨fun b hb b' hb' he => hinv.hostnames.eq hb hb' he, fun hok hostname hnone hput => ?_⟩
  have hbound := ((outline_admitted u).run hr hok (fun _ _ _ _ _ _ _ _ _ => trivial)
    (Holds.quiet ⟨h₀.inv, h₀.bound⟩)).inv.2
  obtain ⟨b, hb, he⟩ := hbound hostname hput
  exact hnone b hb he

end Runs

/-! ## 6. Three runs -/

/-- A public web service. -/
def webService (generation : Nat) (state : Store.ServiceInstanceState) : ServiceRow :=
  ⟨10, 1, 2, "web", .flash {
    region := "jp", image := "nginx", replicas := 1, cpuMillis := 100, memoryMib := 128
    ports := [], exposure := ⟨.external, .forwarded, .web, [], [], none⟩ }, generation, state,
    .object [], none⟩

def oneService : Tables := ⟨[webService 1 .ready], [], [], []⟩

def oneSetup : Setup := ⟨fun _ => ""⟩

theorem oneService_initial : Initial oneService := ⟨rfl, rfl⟩

/-- The hostname is reserved under the identifier 40. -/
def reserves : List (Move Point Choice) :=
  [.start (.reserve ⟨1, 10, 20, "app.example.org"⟩), .act 0 (.call 5 40 41), .act 0 (.call 5 40 41)]

/-- A reconciler goes up to its call to the provider. -/
def asks (i : Nat) : List (Move Point Choice) :=
  [.act i (.call 6 0 0), .act i (.call 7 0 0), .act i (.call 8 0 0)]

/-- The call succeeds, and the reconciler finishes its batch. -/
def finishes (i : Nat) : List (Move Point Choice) :=
  [.act i (.provider true true), .act i (.call 9 0 0), .act i (.call 9 0 0)]

/-- `Admitted`, computed. -/
def admits : Point → Choice → Bool
  | .ask _ b _, .provider true _ => b.deleteRequested ||
      t.flashDomainBindings.any fun row => row.id == b.id && !row.deleteRequested
  | .remove _, .call _ _ _ => false
  | _, _ => true

theorem admits_spec {t : Tables} {l : Point} {a : Choice} (h : admits t l a = true) :
    Admitted t l a := by
  unfold Admitted
  split
  · intro hd
    simp only [admits, hd, Bool.false_or] at h
    obtain ⟨row, hrow, hc⟩ := any_eq_true.mp h
    simp only [Bool.and_eq_true, beq_iff_eq, Bool.not_eq_true'] at hc
    exact ⟨row, hrow, hc⟩
  · cases h
  · exact trivial

/-- A domain is applied, its deletion requested, and it is released. -/
theorem domains_released_one : ∃ past σ,
    Run (program oneSetup) (System.quiet oneService) past σ ∧
    σ.shared.effective = [("app.example.org", .delete), ("app.example.org", .put)] ∧
    σ.shared.flashDomainBindings = [] ∧
    ∀ hostname, σ.shared.lastCall hostname ≠ some .put := by
  obtain ⟨trail, m, hr, hc⟩ := play_any (program oneSetup) oneService
    (reserves ++ [.start .reconciler] ++ asks 1 ++ finishes 1 ++
      [.start (.requestDelete 1 10 40), .act 2 (.call 10 0 0)] ++ asks 1 ++ finishes 1)
    (fun x => x.2.shared.effective == [("app.example.org", .delete), ("app.example.org", .put)] &&
      x.2.shared.flashDomainBindings == [] &&
      x.1.all fun y => match y.2 with
        | .act _ l a => admits y.1.shared l a
        | .start _ _ => true)
    (by decide +kernel)
  simp only [Bool.and_eq_true, beq_iff_eq] at hc
  obtain ⟨⟨heff, hnone⟩, hall⟩ := hc
  refine ⟨_, _, hr, heff, hnone, fun hostname =>
    (domains_released hr oneService_initial).2 (fun e he => ?_) hostname fun b hb => ?_⟩
  · obtain ⟨y, hy, rfl⟩ := mem_map.mp he
    have hy := all_eq_true.mp hall y hy
    unfold Event.Admits
    split
    · exact trivial
    rename_i hlabel
    have hlabel : y.2 = _ := hlabel
    rw [hlabel] at hy
    exact admits_spec hy
  · have hb : b ∈ m.shared.flashDomainBindings := hb
    rw [hnone] at hb
    cases hb

/-- A hostname is active without a binding, and no reconciler holds anything. -/
def LeftActive : Prop :=
  ∃ t past σ hostname, Initial t ∧ Run (program u) (System.quiet t) past σ ∧
    (∀ i l, σ.calls i = some l → l.batch = []) ∧
    (∀ b ∈ σ.shared.flashDomainBindings, b.hostname ≠ hostname) ∧
    σ.shared.lastCall hostname = some .put

/-- What is to be seen at the end of a run. -/
def leftActive (x : Trail Tables Point Choice × Machine Tables Point) : Bool :=
  x.2.calls.all (fun l => l.batch == []) && x.2.shared.flashDomainBindings == [] &&
    x.2.shared.lastCall "app.example.org" == some .put

theorem leftActive_spec {u : Setup} (moves : List (Move Point Choice))
    (h : ((⟨oneService, []⟩ : Machine Tables Point).play (program u) [] moves).any leftActive =
      true) : LeftActive u := by
  obtain ⟨trail, m, hr, hc⟩ := play_any (program u) oneService moves leftActive h
  simp only [leftActive, Bool.and_eq_true, beq_iff_eq] at hc
  obtain ⟨⟨hidle, hnone⟩, hput⟩ := hc
  refine ⟨oneService, _, _, "app.example.org", oneService_initial, hr, fun i l hi => ?_,
    fun b hb => ?_, hput⟩
  · exact beq_iff_eq.mp (all_eq_true.mp hidle l (mem_of_getElem? hi))
  have hb : b ∈ m.shared.flashDomainBindings := hb
  rw [hnone] at hb
  cases hb

/-- **A stale `PUT`**: the first reconciler has read the binding; its deletion is requested, and a
second reconciler deletes the domain and releases the row; then the first one applies it. -/
theorem domains_left_active : LeftActive oneSetup :=
  leftActive_spec (reserves ++ [.start .reconciler] ++ asks 1 ++
    [.start (.requestDelete 1 10 40), .act 2 (.call 10 0 0), .start .reconciler] ++ asks 3 ++
    finishes 3 ++ finishes 1) (by decide +kernel)

/-- **A service goes**, and with it the binding of a domain that is active. -/
theorem domains_left_active_with_service : LeftActive oneSetup :=
  leftActive_spec (reserves ++ [.start .reconciler] ++ asks 1 ++ finishes 1 ++
    [.start .change, .act 2 (.change [webService 2 .deleting]),
      .start (.completeDelete ⟨10, .flash, 2⟩), .act 3 (.call 11 0 0), .act 3 (.call 12 0 0)])
    (by decide +kernel)

end HeteroCloud.Domains
