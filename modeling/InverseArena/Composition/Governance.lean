import InverseArena.Arena.Administration
import InverseArena.Oracle.Contract
import InverseArena.RwaAdapter.Backing
import InverseArena.Vault.Reference

/-!
# Who governs the contracts

The arena, the RWA adapter and the oracle each have an admin who proposes a successor, and
the successor accepts. The three are roles that change hands in two steps.

Results:
* `arenaStep_moves`, `adapterStep_moves`: each call of the arena and of the adapter moves the
  admin's role only as the two steps allow.
* `admins_succeed`: whoever becomes an admin has consented, on a proposal that the admin
  before authorized in its own term.
* `admins_stay_among`: the three roles never leave a circle of addresses whose members do
  not propose anybody else.
-/

namespace InverseArena.Composition

open Host Transition Handover Arena RwaAdapter Oracle

variable {H : Type}

/-! ## The admin of the arena -/

/-- The role of the arena's admin. -/
def arenaAdmin : Role (World H) (Action H) Address where
  holder w := w.storage.config.map (·.admin)
  offered w := w.storage.pendingAdmin.map (·.newAdmin)
  consents a p := ∃ auths c, a = .call auths c ∧ p ∈ auths
  appoints a p := ∃ auths args, a = .call auths (.initializeArena args) ∧ args.admin = p
  offers a q := ∃ auths, a = .call auths (.proposeAdmin q) ∨ a = .call auths (.changeAdmin q)
  accepts a := ∃ auths, a = .call auths .acceptAdmin

section Arena

variable {env : Env H} {auths : List Address} {w w' : World H} {c : Call} {a : Action H}

/-- The rules say who holds the role, and to whom it is offered. -/
theorem arenaAdmin_of_rules (h : w'.storage.rules = w.storage.rules) :
    arenaAdmin.holder w' = arenaAdmin.holder w ∧ arenaAdmin.offered w' = arenaAdmin.offered w :=
  ⟨congrArg Rules.admin h, congrArg (fun r => r.pendingAdmin.map (·.newAdmin)) h⟩

/-- An administrative call moves the role of the admin as the two steps allow. -/
theorem administers_moves {config : ArenaConfig} {now : ℕ}
    (hc : w.storage.config = some config)
    (h : Administers auths config now w.storage.rules c w'.storage.rules) :
    arenaAdmin.Moves w (.call auths c) w' := by
  have hholder : arenaAdmin.holder w = some config.admin := congrArg (Option.map _) hc
  have hadmin : w.storage.rules.admin = some config.admin := hholder
  have hheld : ∀ p, w'.storage.rules.admin = some p → arenaAdmin.holder w' = some p := fun _ h => h
  have hoffered : ∀ pending, w'.storage.rules.pendingAdmin = pending →
      arenaAdmin.offered w' = pending.map (·.newAdmin) := fun _ h => congrArg (Option.map _) h
  generalize w'.storage.rules = r' at h hheld hoffered
  cases h with
  | proposed ha _ =>
    exact .offered ⟨auths, .inl rfl⟩ ⟨auths, _, rfl, ha⟩ hholder (hheld _ hadmin)
      (hoffered _ rfl)
  | changed ha _ =>
    exact .offered ⟨auths, .inr rfl⟩ ⟨auths, _, rfl, ha⟩ hholder (hheld _ hadmin)
      (hoffered _ rfl)
  | accepted hpending ha _ =>
    exact .accepted ⟨auths, rfl⟩ ⟨auths, _, rfl, ha⟩ hholder (congrArg (Option.map _) hpending)
      (hheld _ rfl) (hoffered _ rfl)
  | upgradeProposed _ | limitsConfigured _ _ | banned _ | unbanned _ | paused _ | unpaused _
  | limitConfigured _ =>
    exact .kept ((hheld _ hadmin).trans hholder.symm) (hoffered _ rfl) (by simp [arenaAdmin])

/-- A call of the game offers the role to nobody. -/
theorem not_offers (hadm : c.isAdministrative = false) (q : Address) :
    ¬ (arenaAdmin (H := H)).offers (.call auths c) q := by
  rintro ⟨auths', h | h⟩
  · obtain ⟨-, rfl⟩ := Action.call.inj h
    cases hadm
  · obtain ⟨-, rfl⟩ := Action.call.inj h
    cases hadm

theorem arenaStep_moves (hw : WellFormed w) (hs : Step env w a w') :
    arenaAdmin.Moves w a w' := by
  cases hs with
  | external _ => exact .kept rfl rfl (by simp [arenaAdmin])
  | tick _ _ => exact .kept rfl rfl (by simp [arenaAdmin])
  | @call _ auths c hauths hexec =>
    cases hadm : c.isAdministrative with
    | true =>
      obtain ⟨config, hc, hwrites⟩ := administers_of_exec hadm hexec
      exact administers_moves hc hwrites
    | false =>
      cases hc : w.storage.config with
      | none =>
        obtain ⟨args, rfl, -⟩ := exec_opens hexec hw hc
        obtain ⟨ha, -, hrules⟩ := rules_initialized hexec
        exact .appointed ⟨auths, args, rfl, rfl⟩ ⟨auths, _, rfl, ha⟩ (congrArg (Option.map _) hc)
          (congrArg Rules.admin hrules)
          (congrArg (fun r => r.pendingAdmin.map (·.newAdmin)) hrules) (not_offers hadm)
      | some config =>
        obtain ⟨hholder, hoffered⟩ := arenaAdmin_of_rules (rules_of_game hexec hw hadm hc)
        exact .kept hholder hoffered (not_offers hadm)

end Arena

/-! ## The admin of the adapter -/

/-- The addresses that authorize an action at the adapter. -/
def AdapterAction.auths : AdapterAction → List Address
  | .initializeAdapter auths _ _ | .deposit auths _ _ | .withdrawAll auths _
  | .proposeAdmin auths _ | .acceptAdmin auths => auths
  | .moveTokens _ | .tick _ => []

/-- The role of the adapter's admin. -/
def adapterAdmin : Role AdapterWorld AdapterAction Address where
  holder w := w.state.storage.config.map (·.admin)
  offered w := w.state.storage.pendingAdmin
  consents a p := p ∈ AdapterAction.auths a
  appoints a p := ∃ auths stakeToken, a = .initializeAdapter auths p stakeToken
  offers a q := ∃ auths, a = .proposeAdmin auths q
  accepts a := ∃ auths, a = .acceptAdmin auths

section Adapter

variable {here : Address} {w w' : AdapterWorld} {a : AdapterAction}
  {tr : List (AdapterWorld × AdapterAction)} {tokens : Tokens} {now : ℕ}

/-- An adapter that is not initialized has no configuration. -/
def Unopened (w : AdapterWorld) : Prop :=
  w.state.storage.initialized = false → w.state.storage.config = none

theorem AdapterStep.unopened (h : Unopened w) (hs : AdapterStep here w a w') : Unopened w' := by
  cases hs with
  | initializeAdapter hinit =>
    simp only [initializeAdapter, Fallible.bind_eq_ok, requireAuth_eq_ok, check_eq_ok,
      Fallible.pure_eq_ok, exists_const] at hinit
    obtain ⟨-, -, rfl⟩ := hinit
    rintro ⟨⟩
  | deposit _ hd =>
    obtain ⟨-, -, config, hc, rfl⟩ := deposit_eq_ok.mp hd
    intro hinit
    rw [h hinit] at hc
    cases hc
  | withdrawAll _ hw =>
    obtain ⟨-, config, base, total, tokens, hc, -, -, -, -, -, -, rfl⟩ := withdrawAll_eq_ok.mp hw
    intro hinit
    rw [h hinit] at hc
    cases hc
  | proposeAdmin hp =>
    simp only [RwaAdapter.proposeAdmin, Fallible.bind_eq_ok, Fallible.pure_eq_ok] at hp
    obtain ⟨_, -, _, -, rfl⟩ := hp
    exact h
  | acceptAdmin ha =>
    simp only [RwaAdapter.acceptAdmin, RwaStorage.loadConfig, Fallible.bind_eq_ok, okOr_eq_ok,
      Fallible.pure_eq_ok] at ha
    obtain ⟨_, -, _, -, config, hc, rfl⟩ := ha
    intro hinit
    rw [h hinit] at hc
    cases hc
  | moveTokens _ => exact h
  | tick _ _ => exact h

theorem adapterStep_moves (h : Unopened w) (hs : AdapterStep here w a w') :
    adapterAdmin.Moves w a w' := by
  cases hs with
  | @initializeAdapter _ auths admin stakeToken hinit =>
    simp only [initializeAdapter, Fallible.bind_eq_ok, requireAuth_eq_ok, check_eq_ok,
      Fallible.pure_eq_ok, exists_const] at hinit
    obtain ⟨ha, hfresh, rfl⟩ := hinit
    exact .appointed ⟨auths, stakeToken, rfl⟩ ha (congrArg (Option.map _) (h hfresh)) rfl rfl
      (by simp [adapterAdmin])
  | deposit _ hd =>
    obtain ⟨-, -, config, hc, rfl⟩ := deposit_eq_ok.mp hd
    have hholder : adapterAdmin.holder w = some config.admin := congrArg (Option.map _) hc
    exact .kept hholder.symm rfl (by simp [adapterAdmin])
  | withdrawAll _ hw =>
    obtain ⟨-, config, base, total, tokens, hc, -, -, -, -, -, -, rfl⟩ := withdrawAll_eq_ok.mp hw
    have hholder : adapterAdmin.holder w = some config.admin := congrArg (Option.map _) hc
    exact .kept hholder.symm rfl (by simp [adapterAdmin])
  | @proposeAdmin _ auths newAdmin hp =>
    simp only [RwaAdapter.proposeAdmin, RwaStorage.loadConfig, Fallible.bind_eq_ok, okOr_eq_ok,
      requireAuth_eq_ok, Fallible.pure_eq_ok, exists_const] at hp
    obtain ⟨config, hc, ha, rfl⟩ := hp
    have hholder : adapterAdmin.holder w = some config.admin := congrArg (Option.map _) hc
    exact .offered ⟨auths, rfl⟩ ha hholder hholder rfl
  | @acceptAdmin _ auths hacc =>
    simp only [RwaAdapter.acceptAdmin, RwaStorage.loadConfig, Fallible.bind_eq_ok, okOr_eq_ok,
      requireAuth_eq_ok, Fallible.pure_eq_ok, exists_const] at hacc
    obtain ⟨newAdmin, hpending, ha, config, hc, rfl⟩ := hacc
    have hholder : adapterAdmin.holder w = some config.admin := congrArg (Option.map _) hc
    exact .accepted ⟨auths, rfl⟩ ha hholder hpending rfl rfl
  | moveTokens _ => exact .kept rfl rfl (by simp [adapterAdmin])
  | tick _ _ => exact .kept rfl rfl (by simp [adapterAdmin])

theorem adapterRun_moves (hrun : Run (AdapterStep here) (.fresh tokens now) tr w)
    (hs : AdapterStep here w a w') : adapterAdmin.Moves w a w' := by
  refine adapterStep_moves ?_ hs
  exact hrun.invariant (fun _ _ _ hi hs => AdapterStep.unopened hi hs) fun _ => rfl

end Adapter

/-! ## The three roles -/

/-- In every run of the oracle, of the arena and of the adapter: whoever becomes the admin has
    authorized it, and unless it is the first one, the admin before has proposed it in its
    own term, and nobody else since. -/
theorem admins_succeed (env : Env H) (here : Address) :
    (∀ tr s, Run OracleStep .fresh tr s → AlongRun adminRole.Lawful tr s) ∧
    (∀ outside now tr w, Run (Step env) (World.fresh outside now) tr w →
      AlongRun arenaAdmin.Lawful tr w) ∧
    ∀ tokens now tr w, Run (AdapterStep here) (.fresh tokens now) tr w →
      AlongRun adapterAdmin.Lawful tr w := by
  refine ⟨fun tr s hrun => ?_, fun outside now tr w hrun => ?_, fun tokens now tr w hrun => ?_⟩
  · exact Role.succession (fun _ _ _ _ _ hs => hs.moves) fresh_vacant hrun
  · exact Role.succession (fun _ _ _ _ hr hs => arenaStep_moves (wellFormed_of_run hr) hs)
      ⟨rfl, rfl⟩ hrun
  · exact Role.succession (fun _ _ _ _ hr hs => adapterRun_moves hr hs) ⟨rfl, rfl⟩ hrun

/-- The calls by which 10 becomes the oracle's admin, and 11 after it. -/
def sampleHandover : List OracleAction :=
  [⟨[⟨10⟩], .initializeOracle ⟨10⟩ 500⟩, ⟨[⟨10⟩], .proposeAdmin ⟨11⟩⟩, ⟨[⟨11⟩], .acceptAdmin⟩]

/-- The same at an arena. -/
def sampleArenaHandover : List (Move (reference false)) :=
  [.call [⟨10⟩] (.initializeArena (sampleArgs 100)), .call [⟨10⟩] (.proposeAdmin ⟨11⟩),
    .call [⟨11⟩] .acceptAdmin]

/-- The same at an adapter at address 2. -/
theorem exists_adapterHandover : ∃ tr w,
    Run (AdapterStep ⟨2⟩) (.fresh (fun _ => Ledger.empty) 0) tr w ∧
      adapterAdmin.holder w = some ⟨11⟩ := by
  have hrun : Run (AdapterStep ⟨2⟩) (.fresh (fun _ => Ledger.empty) 0)
      [(_, .acceptAdmin [⟨11⟩]), (_, .proposeAdmin [⟨10⟩] ⟨11⟩),
        (_, .initializeAdapter [⟨10⟩] ⟨10⟩ ⟨1⟩)] _ :=
    .snoc (.snoc (.single (.initializeAdapter rfl)) (.proposeAdmin rfl)) (.acceptAdmin rfl)
  exact ⟨_, _, hrun, rfl⟩

/-- In all three, 11 becomes the admin after 10. -/
theorem admins_succeed_once : ∃ trO s trA w trR v,
    Run OracleStep .fresh trO s ∧ s.admin = some ⟨11⟩ ∧ AlongRun adminRole.Lawful trO s ∧
    Run (Step (reference false)) (World.fresh VaultState.sample 0) trA w ∧
    arenaAdmin.holder w = some ⟨11⟩ ∧ AlongRun arenaAdmin.Lawful trA w ∧
    Run (AdapterStep ⟨2⟩) (.fresh (fun _ => Ledger.empty) 0) trR v ∧
    adapterAdmin.holder v = some ⟨11⟩ ∧ AlongRun adapterAdmin.Lawful trR v := by
  obtain ⟨trO, s, hO, hs⟩ : ∃ tr s, Run OracleStep .fresh tr s ∧ s.admin = some ⟨11⟩ :=
    exists_oracleRun sampleHandover (by decide)
  obtain ⟨trA, w, hA, hw⟩ : ∃ tr w,
      Run (Step (reference false)) (World.fresh VaultState.sample 0) tr w ∧
        w.storage.config.map (·.admin) = some ⟨11⟩ :=
    exists_run sampleArenaHandover (by decide +kernel)
  obtain ⟨trR, v, hR, hv⟩ := exists_adapterHandover
  obtain ⟨horacle, harena, hadapter⟩ := admins_succeed (reference false) ⟨2⟩
  exact ⟨trO, s, trA, w, trR, v, hO, hs, horacle _ _ hO, hA, hw, harena _ _ _ _ hA, hR, hv,
    hadapter _ _ _ _ hR⟩

/-- The circle appoints itself and keeps to itself: only members are appointed, and no member
    who holds the role authorizes a proposal of somebody else. -/
structure Closed {σ α : Type*} (r : Role σ α Address) (circle : Set Address)
    (tr : List (σ × α)) : Prop where
  appoint : ∀ e ∈ tr, ∀ p, r.appoints e.2 p → p ∈ circle
  offer : ∀ e ∈ tr, ∀ p ∈ circle, r.consents e.2 p → r.holder e.1 = some p →
    ∀ q, r.offers e.2 q → q ∈ circle

/-- The admins of the three contracts stay among the members of a circle that keeps to
    itself, whatever everybody else calls. -/
theorem admins_stay_among (env : Env H) (here : Address) (circle : Set Address) :
    (∀ tr s, Run OracleStep .fresh tr s → Closed adminRole circle tr →
      ∀ p, adminRole.holder s = some p → p ∈ circle) ∧
    (∀ outside now tr w, Run (Step env) (World.fresh outside now) tr w →
      Closed arenaAdmin circle tr → ∀ p, arenaAdmin.holder w = some p → p ∈ circle) ∧
    ∀ tokens now tr w, Run (AdapterStep here) (.fresh tokens now) tr w →
      Closed adapterAdmin circle tr → ∀ p, adapterAdmin.holder w = some p → p ∈ circle := by
  refine ⟨fun tr s hrun hclosed => ?_, fun outside now tr w hrun hclosed => ?_,
    fun tokens now tr w hrun hclosed => ?_⟩
  · exact Role.stays_among (fun _ _ _ _ _ hs => hs.moves) fresh_vacant hrun hclosed.appoint
      hclosed.offer
  · exact Role.stays_among (fun _ _ _ _ hr hs => arenaStep_moves (wellFormed_of_run hr) hs)
      ⟨rfl, rfl⟩ hrun hclosed.appoint hclosed.offer
  · exact Role.stays_among (fun _ _ _ _ hr hs => adapterRun_moves hr hs) ⟨rfl, rfl⟩ hrun
      hclosed.appoint hclosed.offer

/-- The circle of 10 and 11, of whom 10 proposes 11 as the oracle's admin. -/
theorem admins_stay_among_two : ∃ tr s, Run OracleStep .fresh tr s ∧ s.admin = some ⟨11⟩ ∧
    ∀ p, adminRole.holder s = some p → p ∈ ({⟨10⟩, ⟨11⟩} : Set Address) := by
  obtain ⟨tr, s, hrun, hs, hcalls⟩ : ∃ tr s, Run OracleStep .fresh tr s ∧ s.admin = some ⟨11⟩ ∧
      tr.map (·.2) = sampleHandover.reverse :=
    exists_oracleRun sampleHandover (by decide)
  refine ⟨tr, s, hrun, hs, (admins_stay_among (reference false) ⟨2⟩ _).1 tr s hrun
    ⟨fun e he p => ?_, fun e he p _ _ _ q => ?_⟩⟩
  · rintro ⟨rate, hcall⟩
    have hmem : e.2 ∈ sampleHandover.reverse := hcalls ▸ List.mem_map_of_mem he
    simp only [sampleHandover, List.reverse_cons, List.mem_append, List.mem_singleton,
      List.reverse_nil, List.not_mem_nil, false_or] at hmem
    rcases hmem with (h | h) | h <;> rw [h] at hcall <;> cases hcall
    exact .inl rfl
  · intro hcall
    have hmem : e.2 ∈ sampleHandover.reverse := hcalls ▸ List.mem_map_of_mem he
    simp only [sampleHandover, List.reverse_cons, List.mem_append, List.mem_singleton,
      List.reverse_nil, List.not_mem_nil, false_or] at hmem
    change e.2.call = .proposeAdmin q at hcall
    rcases hmem with (h | h) | h <;> rw [h] at hcall <;> cases hcall
    exact .inr rfl

end InverseArena.Composition
