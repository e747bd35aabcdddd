import InverseArena.CoinArena.Replay

/-!
# Who controls the coin arena

`initialize` needs no authorization and overwrites the configuration of an
arena that exists, and `cleanup_arena` erases the records of the players
whether or not they were paid.

Results:
* `ControlTurn`, `Step.controlTurn`: what a step means for the admin and the
  players' records.
* `controlled_iff`: the admin changes hands by `propose_admin` and
  `accept_admin` only, and no record is reset while players have stakes, all
  along exactly the runs without an `initialize` in another admin's name, and
  without an `initialize` or a `cleanup_arena` while players have stakes.
-/

namespace InverseArena.CoinArena

open Host KeyedMap Transition

variable {G H : Type}

/-- How a call changes the list of the players whose fee the arena holds: a
    join enters the player, a refund gives one entry back, a claim pays the pot
    out. -/
def Call.stakersAfter : Call → List Address → List Address
  | .join player, l => player :: l
  | .claimRefund player, l => l.erase player
  | .claim _, _ => []
  | _, l => l

/-- The players who have a stake in the arena, once for each. -/
def stakers : List (World G H × Action H) → List Address
  | [] => []
  | (_, .call _ c) :: tr => c.stakersAfter (stakers tr)
  | _ :: tr => stakers tr

/-- `newAdmin` was proposed with the authorization of `admin`, the stored admin
    at that time. -/
def Proposed (tr : List (World G H × Action H)) (admin newAdmin : Address) : Prop :=
  ∃ t auths config, (t, Action.call auths (.proposeAdmin newAdmin)) ∈ tr ∧
    t.storage.config = some config ∧ config.admin = admin ∧ admin ∈ auths

/-- The admin is kept, or the one proposed accepts. -/
def HandsOver (tr : List (World G H × Action H)) (a : Action H) (admin newAdmin : Address) : Prop :=
  newAdmin = admin ∨ Proposed tr admin newAdmin ∧
    ∃ auths, a = .call auths .acceptAdmin ∧ newAdmin ∈ auths

/-- Token, treasury and the records of the players are not reset. The treasury
    may be updated by the admin. -/
structure RecordsKept (a : Action H) (t u : World G H) (config config' : ArenaConfig) : Prop where
  token : config'.token = config.token
  treasury : config'.treasuryAddress = config.treasuryAddress ∨
    ∃ auths newTreasury, a = .call auths (.updateTreasury newTreasury) ∧ config.admin ∈ auths
  count : config.playerCount ≤ config'.playerCount
  players : t.storage.loadAllPlayers <+: u.storage.loadAllPlayers
  active : ∀ p, (t.storage.active p).isSome = true → (u.storage.active p).isSome = true
  refund : ∀ p, t.storage.isRefundClaimed p = true → u.storage.isRefundClaimed p = true

/-- The last step leaves an initialized arena under control. -/
def Controlled : List (World G H × Action H) → World G H → Prop
  | [], _ => True
  | (t, a) :: tr, u => ∀ config, t.storage.config = some config →
    ∃ config', u.storage.config = some config' ∧ HandsOver tr a config.admin config'.admin ∧
      (stakers tr ≠ [] → RecordsKept a t u config config')

/-- An arena that exists is initialized again only in the name of its admin,
    and neither that nor a cleanup happens while players have stakes. -/
def Guarded (tr : List (World G H × Action H)) (t : World G H) : Action H → Prop
  | .call _ (.initializeArena a) => ∀ config, t.storage.config = some config →
    a.admin = config.admin ∧ stakers tr = []
  | .call _ .cleanupArena => stakers tr = []
  | _ => True

/-! ## What a step means -/

/-- What the control of an arena depends on in its configuration. -/
structure Parties where
  admin : Address
  token : Address
  treasury : Address
  count : ℕ

/-- The parties of a configuration. -/
def ArenaConfig.parties (config : ArenaConfig) : Parties :=
  ⟨config.admin, config.token, config.treasuryAddress, config.playerCount⟩

/-- What the control of an arena depends on: the parties, the players' records and
    the pending admin. -/
@[ext] structure ControlView where
  parties : Option Parties
  players : List Address
  pendingAdmin : Option Address
  present : Address → Bool
  refunded : Address → Bool

/-- The part of the storage that the control depends on. -/
def ArenaStorage.control (s : ArenaStorage G) : ControlView where
  parties := s.config.map ArenaConfig.parties
  players := s.loadAllPlayers
  pendingAdmin := s.pendingAdmin
  present p := (s.active p).isSome
  refunded := s.isRefundClaimed

/-- The calls that reset an arena. -/
def Call.resets : Call → Bool
  | .initializeArena _ | .cleanupArena => true
  | _ => false

/-- What a step means for the admin and the players' records. -/
inductive ControlTurn (t u : World G H) : Action H → Prop
  | quiet {a : Action H} :
      (∀ tr : List (World G H × Action H), (stakers ((t, a) :: tr)).Sublist (stakers tr)) →
      (∀ auths c, a = .call auths c → c.resets = false) →
      u.storage.control = t.storage.control → ControlTurn t u a
  | retreasured {auths : List Address} {newTreasury : Address} {config : ArenaConfig} :
      t.storage.config = some config → config.admin ∈ auths →
      u.storage.control = { t.storage.control with
        parties := some { config.parties with treasury := newTreasury } } →
      ControlTurn t u (.call auths (.updateTreasury newTreasury))
  | refunded {auths : List Address} {player : Address} :
      u.storage.control = { t.storage.control with
        refunded := Function.update t.storage.isRefundClaimed player true } →
      ControlTurn t u (.call auths (.claimRefund player))
  | initialized {auths : List Address} {args : InitializeArgs} :
      u.storage.control = { t.storage.control with
        parties := some ⟨args.admin, args.token, args.treasuryAddress, 0⟩ } →
      ControlTurn t u (.call auths (.initializeArena args))
  | proposed {auths : List Address} {newAdmin : Address} {config : ArenaConfig} :
      t.storage.config = some config → config.admin ∈ auths →
      u.storage.control = { t.storage.control with pendingAdmin := some newAdmin } →
      ControlTurn t u (.call auths (.proposeAdmin newAdmin))
  | accepted {auths : List Address} {pending : Address} {config : ArenaConfig} :
      t.storage.config = some config → t.storage.pendingAdmin = some pending → pending ∈ auths →
      u.storage.control = { t.storage.control with
        parties := some { config.parties with admin := pending }
        pendingAdmin := none } →
      ControlTurn t u (.call auths .acceptAdmin)
  | joined {auths : List Address} {player : Address} {config : ArenaConfig} :
      t.storage.config = some config →
      u.storage.control = { t.storage.control with
        parties := some { config.parties with count := config.playerCount + 1 }
        players := t.storage.loadAllPlayers ++ [player]
        present := Function.update t.storage.control.present player true } →
      ControlTurn t u (.call auths (.join player))
  | cleaned {auths : List Address} {config : ArenaConfig} :
      t.storage.config = some config → u.storage = t.storage.cleanupArenaData →
      ControlTurn t u (.call auths .cleanupArena)

variable {env : Env G H} {auths : List Address} {t u : World G H} {a : Action H} {c : Call}
  {tr : List (World G H × Action H)}

/-- A call that takes no stake and leaves the control alone. -/
theorem ControlTurn.of_call (hst : ∀ l, (c.stakersAfter l).Sublist l) (hreset : c.resets = false)
    (h : u.storage.control = t.storage.control) : ControlTurn t u (.call auths c) :=
  .quiet (fun _ => hst _) (fun _ _ heq => by cases heq; exact hreset) h

theorem control_eq {s s' : ArenaStorage G} {config config' : ArenaConfig}
    (hc : s.config = some config) (hc' : s'.config = some config')
    (hadmin : config'.admin = config.admin) (htoken : config'.token = config.token)
    (htreasury : config'.treasuryAddress = config.treasuryAddress)
    (hcount : config'.playerCount = config.playerCount) (hplayers : s'.players = s.players)
    (hpending : s'.pendingAdmin = s.pendingAdmin)
    (hpresent : ∀ p, (s'.active p).isSome = (s.active p).isSome)
    (hrefund : s'.refundClaimed = s.refundClaimed) : s'.control = s.control := by
  have hpresent' : (fun p => (s'.active p).isSome) = fun p => (s.active p).isSome := funext hpresent
  simp only [ArenaStorage.control, ArenaStorage.loadAllPlayers, hc, hc', hplayers, hpending,
    hpresent', Option.map_some, ArenaConfig.parties, hadmin, htoken, htreasury, hcount]
  congr 1
  funext p
  unfold ArenaStorage.isRefundClaimed
  rw [hrefund]

/-- The calls that tune the configuration, write the entries of the missing
    functions or resolve a round. -/
theorem stakersAfter_sublist (h : c.isTuning || c.isGlobal || c.isResolution) :
    (∀ l, (c.stakersAfter l).Sublist l) ∧ c.resets = false := by
  cases c with
  | pause | unpause | updateTreasury | setCreationCooldown | setSlashRate =>
    exact ⟨List.Sublist.refl, rfl⟩
  | updateRoundBounds | updatePlatformFee => exact ⟨List.Sublist.refl, rfl⟩
  | resolveRound | autoResolve => exact ⟨List.Sublist.refl, rfl⟩
  | _ => cases h

theorem Effect.controlTurn (h : Effect env auths t c u) : ControlTurn t u (.call auths c) := by
  have hrefl : ∀ l : List Address, l.Sublist l := List.Sublist.refl
  cases h with
  | initialized => exact .initialized rfl
  | configured hc =>
    exact .of_call hrefl rfl (control_eq hc rfl rfl rfl rfl rfl rfl rfl (fun _ => rfl) rfl)
  | tuned ht hc ha hc' htreasury =>
    obtain ⟨hst, hreset⟩ := stakersAfter_sublist (c := c) (by rw [ht]; rfl)
    rcases htreasury with htreasury | rfl
    · exact .of_call hst hreset
        (control_eq hc hc' rfl rfl htreasury rfl rfl rfl (fun _ => rfl) rfl)
    · exact .retreasured hc ha (by simp only [ArenaStorage.control, hc']; rfl)
  | regulated hg =>
    obtain ⟨hst, hreset⟩ := stakersAfter_sublist (c := c) (by simp [hg])
    exact .of_call hst hreset rfl
  | started hc =>
    exact .of_call hrefl rfl (control_eq hc rfl rfl rfl rfl rfl rfl rfl (fun _ => rfl) rfl)
  | finished hc =>
    exact .of_call hrefl rfl (control_eq hc rfl rfl rfl rfl rfl rfl rfl (fun _ => rfl) rfl)
  | cancelled hc _ hby =>
    rcases hby with ⟨rfl, -⟩ | ⟨rfl, -⟩
    · exact .of_call hrefl rfl (control_eq hc rfl rfl rfl rfl rfl rfl rfl (fun _ => rfl) rfl)
    · exact .of_call hrefl rfl (control_eq hc rfl rfl rfl rfl rfl rfl rfl (fun _ => rfl) rfl)
  | proposed hc ha => exact .proposed hc ha rfl
  | accepted hc hp ha => exact .accepted hc hp ha rfl
  | @joined player config _ _ _ _ _ hc =>
    refine .joined hc (ControlView.ext rfl rfl rfl (funext fun p => ?_) rfl)
    exact Function.apply_update (fun _ o => Option.isSome o) t.storage.active player (some true) p
  | chosen hc => exact .of_call hrefl rfl rfl
  | roundStarted hc => exact .of_call hrefl rfl rfl
  | committed hc => exact .of_call hrefl rfl rfl
  | revealed hc => exact .of_call hrefl rfl rfl
  | resolved hres hc _ _ hc' hactive =>
    obtain ⟨hst, hreset⟩ := stakersAfter_sublist (c := c) (by simp [hres])
    refine .of_call hst hreset
      (control_eq hc hc' rfl rfl rfl rfl rfl rfl (fun p => ?_) rfl)
    rcases hactive p with hsame | ⟨-, hold, hout⟩
    · exact congrArg _ hsame
    · unfold ArenaStorage.isPlayerActive at hold
      refine (congrArg Option.isSome hout).trans ?_
      cases hp : t.storage.active p with
      | none => rw [hp] at hold; cases hold
      | some b => rfl
  | claimed => exact .of_call (fun l => List.nil_sublist l) rfl rfl
  | cleaned hc => exact .cleaned hc rfl
  | @refunded player =>
    exact .refunded (ControlView.ext rfl rfl rfl rfl (t.storage.isRefundClaimed_update player))
  | staked _ _ _ hc =>
    exact .of_call hrefl rfl (control_eq hc rfl rfl rfl rfl rfl rfl rfl (fun _ => rfl) rfl)
  | unstaked _ _ hc =>
    exact .of_call hrefl rfl (control_eq hc rfl rfl rfl rfl rfl rfl rfl (fun _ => rfl) rfl)
  | yielded _ _ hc => exact .of_call hrefl rfl rfl

theorem Step.controlTurn (h : Step env t a u) : ControlTurn t u a := by
  cases h with
  | @call _ auths c hauths hexec => exact (exec_effect hexec).controlTurn
  | external => exact .quiet (fun _ => .refl _) nofun rfl
  | tick => exact .quiet (fun _ => .refl _) nofun rfl

/-! ## What the runs keep -/

/-- After the steps `tr`, which meet the condition: the pending admin was proposed
    by the stored one, and the players with stakes are counted and listed. -/
structure Accounted (tr : List (World G H × Action H)) (v : ControlView) : Prop where
  proposed : ∀ p, v.pendingAdmin = some p → ∃ x, v.parties = some x ∧ Proposed tr x.admin p
  counted : ∀ x, v.parties = some x → (stakers tr).length ≤ x.count
  unset : v.parties = none → stakers tr = []
  listed : ∀ p ∈ stakers tr, p ∈ v.players

theorem Proposed.cons {admin newAdmin : Address} {e : World G H × Action H}
    (h : Proposed tr admin newAdmin) : Proposed (e :: tr) admin newAdmin := by
  obtain ⟨t, auths, config, hmem, hc, hadmin, ha⟩ := h
  exact ⟨t, auths, config, List.mem_cons_of_mem _ hmem, hc, hadmin, ha⟩

theorem parties_eq {s : ArenaStorage G} {config : ArenaConfig} (hc : s.config = some config) :
    s.control.parties = some config.parties := congrArg (Option.map ArenaConfig.parties) hc

theorem exists_config {s : ArenaStorage G} {x : Parties} (h : s.control.parties = some x) :
    ∃ config, s.config = some config ∧ config.parties = x := Option.map_eq_some_iff.mp h

/-- A step that takes no stake, keeps the parties up to their treasury and the
    players' list and changes no pending admin. -/
theorem Accounted.frame {e : World G H × Action H} {v v' : ControlView} (h : Accounted tr v)
    (hst : (stakers (e :: tr)).Sublist (stakers tr))
    (hparties : Option.Rel (fun x x' => x'.admin = x.admin ∧ x'.count = x.count)
      v.parties v'.parties)
    (hpending : v'.pendingAdmin = v.pendingAdmin) (hplayers : v'.players = v.players) :
    Accounted (e :: tr) v' where
  proposed p hp := by
    obtain ⟨x, hx, hprop⟩ := h.proposed p (hpending ▸ hp)
    rw [hx] at hparties
    generalize v'.parties = o at hparties
    cases hparties with
    | @some _ x' hrel => exact ⟨x', rfl, hrel.1 ▸ hprop.cons⟩
  counted x' hx' := by
    rw [hx'] at hparties
    generalize hv : v.parties = o at hparties
    cases hparties with
    | @some x _ hrel => exact hrel.2 ▸ hst.length_le.trans (h.counted x hv)
  unset hx' := by
    rw [hx'] at hparties
    generalize hv : v.parties = o at hparties
    cases hparties with
    | none => exact List.sublist_nil.mp (h.unset hv ▸ hst)
  listed p hp := hplayers ▸ h.listed p (hst.subset hp)

theorem Accounted.step (h : Accounted tr t.storage.control) (hturn : ControlTurn t u a)
    (hg : Guarded tr t a) : Accounted ((t, a) :: tr) u.storage.control := by
  have hsame : Option.Rel (fun x x' : Parties => x'.admin = x.admin ∧ x'.count = x.count)
      t.storage.control.parties t.storage.control.parties := rel_self (fun _ => ⟨rfl, rfl⟩) _
  cases hturn with
  | quiet hst _ hu => rw [hu]; exact h.frame (hst tr) hsame rfl rfl
  | retreasured hc _ hu =>
    rw [hu]
    exact h.frame (.refl _) (by rw [parties_eq hc]; exact .some ⟨rfl, rfl⟩) rfl rfl
  | refunded hu => rw [hu]; exact h.frame List.erase_sublist hsame rfl rfl
  | @initialized auths args hu =>
    rw [hu]
    have hnone : stakers tr = [] := by
      cases hc : t.storage.config with
      | none => exact h.unset (congrArg (Option.map ArenaConfig.parties) hc)
      | some config => exact (hg config hc).2
    refine ⟨fun p hp => ⟨_, rfl, ?_⟩, fun _ _ => ?_, nofun, fun p hp => ?_⟩
    · obtain ⟨x, hx, hprop⟩ := h.proposed p hp
      obtain ⟨config, hc, rfl⟩ := exists_config hx
      exact (hg config hc).1 ▸ hprop.cons
    · show (stakers tr).length ≤ _
      rw [hnone]
      exact Nat.zero_le _
    · exact absurd (hnone ▸ hp : p ∈ ([] : List Address)) List.not_mem_nil
  | @proposed auths newAdmin config hc ha hu =>
    rw [hu]
    refine ⟨fun p hp => ⟨_, parties_eq hc, ?_⟩, h.counted, h.unset, h.listed⟩
    obtain rfl := Option.some.inj hp
    exact ⟨t, auths, config, List.mem_cons_self, hc, rfl, ha⟩
  | accepted hc hp ha hu =>
    rw [hu]
    have hcount := h.counted _ (parties_eq hc)
    refine ⟨nofun, fun x hx => ?_, nofun, h.listed⟩
    cases hx
    exact hcount
  | @joined auths player config hc hu =>
    rw [hu]
    refine ⟨fun p hp => ⟨_, rfl, ?_⟩, fun x hx => ?_, nofun, fun p hp => ?_⟩
    · obtain ⟨x, hx, hprop⟩ := h.proposed p hp
      cases (parties_eq hc).symm.trans hx
      exact hprop.cons
    · cases hx
      exact Nat.succ_le_succ (h.counted _ (parties_eq hc))
    · rcases List.mem_cons.mp hp with rfl | hp
      · exact List.mem_append_right _ List.mem_cons_self
      · exact List.mem_append_left _ (h.listed p hp)
  | cleaned hc hu =>
    have hnone : stakers tr = [] := hg
    have hparties : u.storage.control.parties = t.storage.control.parties := by
      rw [hu, ArenaStorage.cleanupArenaData_eq]
      rfl
    refine ⟨fun p hp => ?_, fun x hx => ?_, fun _ => hnone, fun p hp => ?_⟩
    · rw [hu, ArenaStorage.cleanupArenaData_eq] at hp
      obtain ⟨x, hx, hprop⟩ := h.proposed p hp
      exact ⟨x, hparties.trans hx, hprop.cons⟩
    · exact h.counted x (hparties ▸ hx)
    · exact absurd (hnone ▸ hp : p ∈ ([] : List Address)) List.not_mem_nil

/-- In a run from a fresh arena whose steps meet the condition. -/
theorem accounted_of_run {globals : G} {outside : H} {now sequence : ℕ}
    (hrun : Run (Step env) (.fresh globals outside now sequence) tr t)
    (heach : EachStep Guarded tr) : Accounted tr t.storage.control := by
  induction hrun with
  | nil => exact ⟨nofun, nofun, fun _ => rfl, nofun⟩
  | snoc _ hs ih => exact (ih heach.2).step hs.controlTurn heach.1

/-! ## One step -/

/-- From an arena under the configuration `config` to one under `config'`. -/
theorem controlled_cons {config config' : ArenaConfig} (hc : t.storage.config = some config)
    (hc' : u.storage.config = some config') : Controlled ((t, a) :: tr) u ↔
      HandsOver tr a config.admin config'.admin ∧
        (stakers tr ≠ [] → RecordsKept a t u config config') := by
  constructor
  · intro h
    obtain ⟨config₁, hc₁, hadmin, hkept⟩ := h config hc
    cases hc'.symm.trans hc₁
    exact ⟨hadmin, hkept⟩
  · rintro ⟨hadmin, hkept⟩ config₁ hc₁
    cases hc.symm.trans hc₁
    exact ⟨config', hc', hadmin, hkept⟩

/-- The last step leaves the players' records alone, up to new players and
    refunds. -/
theorem controlled_of_kept {x : Parties} {config : ArenaConfig}
    (hc : t.storage.config = some config) (hx : u.storage.control.parties = some x)
    (hadmin : HandsOver tr a config.admin x.admin) (htoken : x.token = config.token)
    (htreasury : x.treasury = config.treasuryAddress ∨
      ∃ auths newTreasury, a = .call auths (.updateTreasury newTreasury) ∧ config.admin ∈ auths)
    (hcount : config.playerCount ≤ x.count)
    (hplayers : t.storage.control.players <+: u.storage.control.players)
    (hpresent : ∀ p, t.storage.control.present p = true → u.storage.control.present p = true)
    (hrefund : ∀ p, t.storage.control.refunded p = true → u.storage.control.refunded p = true) :
    Controlled ((t, a) :: tr) u := by
  obtain ⟨config', hc', rfl⟩ := exists_config hx
  exact (controlled_cons hc hc').mpr
    ⟨hadmin, fun _ => ⟨htoken, htreasury, hcount, hplayers, hpresent, hrefund⟩⟩

/-- A step of a run that has met the condition leaves the arena under control
    exactly when it meets it, too. -/
theorem Accounted.stays_controlled_iff (h : Accounted tr t.storage.control)
    (hturn : ControlTurn t u a) : Controlled ((t, a) :: tr) u ↔ Guarded tr t a := by
  cases hturn with
  | @quiet a hst hreset hu =>
    refine iff_of_true ?_ ?_
    · intro config hc
      have hx := parties_eq hc
      rw [← hu] at hx
      exact controlled_of_kept hc hx (.inl rfl) rfl (.inl rfl) le_rfl (by rw [hu])
        (by rw [hu]; exact fun _ hp => hp) (by rw [hu]; exact fun _ hp => hp) config hc
    · cases a with
      | call auths c =>
        cases c with
        | initializeArena args => cases hreset _ _ rfl
        | cleanupArena => cases hreset _ _ rfl
        | _ => trivial
      | _ => trivial
  | @retreasured auths newTreasury config hc ha hu =>
    have hx : u.storage.control.parties = some { config.parties with treasury := newTreasury } := by
      rw [hu]
    exact iff_of_true (controlled_of_kept hc hx (.inl rfl) rfl (.inr ⟨auths, newTreasury, rfl, ha⟩)
      le_rfl (by rw [hu]) (by rw [hu]; exact fun _ hp => hp) (by rw [hu]; exact fun _ hp => hp))
      trivial
  | @refunded auths player hu =>
    refine iff_of_true (fun config hc => ?_) trivial
    have hx : u.storage.control.parties = some config.parties := by rw [hu]; exact parties_eq hc
    refine controlled_of_kept hc hx (.inl rfl) rfl (.inl rfl) le_rfl (by rw [hu])
      (by rw [hu]; exact fun _ hp => hp) (fun p hp => ?_) config hc
    rw [hu]
    show Function.update t.storage.isRefundClaimed player true p = true
    rcases Decidable.eq_or_ne p player with rfl | hne
    · exact Function.update_self _ _ _
    · rw [Function.update_of_ne hne]
      exact hp
  | @initialized auths args hu =>
    have hx : u.storage.control.parties =
        some ⟨args.admin, args.token, args.treasuryAddress, 0⟩ := by rw [hu]
    obtain ⟨config', hc', hparties⟩ := exists_config hx
    have hadmin : config'.admin = args.admin := congrArg Parties.admin hparties
    have hcount : config'.playerCount = 0 := congrArg Parties.count hparties
    constructor
    · intro hcon config hc
      obtain ⟨hover, hkept⟩ := (controlled_cons hc hc').mp hcon
      refine ⟨?_, by_contra fun hne => ?_⟩
      · rcases hover with hsame | ⟨-, auths', heq, -⟩
        · rw [← hadmin, hsame]
        · cases heq
      · -- somebody has a stake, so players were counted, and the count is 0 now
        have hle := (hkept hne).count
        have hstake := h.counted _ (parties_eq hc)
        have hpos := List.length_pos_of_ne_nil hne
        unfold ArenaConfig.parties at hstake
        dsimp only at hstake
        omega
    · intro hg config hc
      obtain ⟨hsame, hnone⟩ := hg config hc
      exact (controlled_cons hc hc').mpr ⟨.inl (hadmin.trans hsame), fun hne => absurd hnone hne⟩
        config hc
  | @proposed auths newAdmin config hc ha hu =>
    have hx : u.storage.control.parties = some config.parties := by rw [hu]; exact parties_eq hc
    exact iff_of_true (controlled_of_kept hc hx (.inl rfl) rfl (.inl rfl) le_rfl (by rw [hu])
      (by rw [hu]; exact fun _ hp => hp) (by rw [hu]; exact fun _ hp => hp)) trivial
  | @accepted auths pending config hc hp ha hu =>
    have hx : u.storage.control.parties = some { config.parties with admin := pending } := by
      rw [hu]
    obtain ⟨x, hparties, hprop⟩ := h.proposed pending hp
    cases (parties_eq hc).symm.trans hparties
    exact iff_of_true (controlled_of_kept hc hx (.inr ⟨hprop, auths, rfl, ha⟩) rfl (.inl rfl)
      le_rfl (by rw [hu]) (by rw [hu]; exact fun _ hp => hp) (by rw [hu]; exact fun _ hp => hp))
      trivial
  | @joined auths player config hc hu =>
    have hx : u.storage.control.parties =
        some { config.parties with count := config.playerCount + 1 } := by rw [hu]
    refine iff_of_true (controlled_of_kept hc hx (.inl rfl) rfl (.inl rfl) (Nat.le_succ _)
      (by rw [hu]; exact List.prefix_append _ _) (fun p hp => ?_)
      (by rw [hu]; exact fun _ hp => hp)) trivial
    rw [hu]
    show Function.update t.storage.control.present player true p = true
    rcases Decidable.eq_or_ne p player with rfl | hne
    · exact Function.update_self _ _ _
    · rw [Function.update_of_ne hne]
      exact hp
  | @cleaned auths config hc hu =>
    have hx : u.storage.control.parties = some config.parties := by
      rw [hu, ArenaStorage.cleanupArenaData_eq]
      exact parties_eq hc
    obtain ⟨config', hc', hparties⟩ := exists_config hx
    constructor
    · intro hcon
      by_contra hne
      -- a player with a stake was listed, and the list is empty now
      have hpre := (((controlled_cons hc hc').mp hcon).2 hne).players
      have hempty : u.storage.loadAllPlayers = [] := by
        rw [hu, ArenaStorage.cleanupArenaData_eq]
        rfl
      obtain ⟨p, hp⟩ := List.exists_mem_of_ne_nil _ hne
      rw [hempty] at hpre
      exact absurd (hpre.subset (h.listed p hp)) List.not_mem_nil
    · intro hnone
      exact (controlled_cons hc hc').mpr
        ⟨.inl (congrArg Parties.admin hparties), fun hne => absurd hnone hne⟩

/-! ## Whole runs -/

/-- In every run of any calls by any callers: the admin changes hands by proposal
    and acceptance only, and nothing is reset while players have stakes, all along
    exactly the runs whose steps are guarded. -/
theorem controlled_iff {globals : G} {outside : H} {now sequence : ℕ}
    (hrun : Run (Step env) (.fresh globals outside now sequence) tr t) :
    AlongRun Controlled tr t ↔ EachStep Guarded tr :=
  hrun.alongRun_iff_of_each trivial fun _ _ _ _ hr heach hs =>
    (accounted_of_run hr heach).stays_controlled_iff hs.controlTurn

/-- Players 11 and 12 join, and admin 10 hands the arena over to 13. -/
theorem controlled_iff_sample : ∃ tr w, Run (Step sampleEnv) sampleWorld tr w ∧
    w.storage.config.map (·.admin) = some ⟨13⟩ ∧
    (AlongRun Controlled tr w ↔ EachStep Guarded tr) := by
  obtain ⟨tr, w, hrun, hadmin⟩ : ∃ tr w, Run (Step sampleEnv) sampleWorld tr w ∧
      w.storage.config.map (·.admin) = some ⟨13⟩ :=
    exists_run (sampleJoins 10 ++
      [.call [⟨10⟩] (.proposeAdmin ⟨13⟩), .call [⟨13⟩] .acceptAdmin]) (by decide +kernel)
  exact ⟨tr, w, hrun, hadmin, controlled_iff hrun⟩

/-- Players 11 and 12 join, and somebody, authorized by nobody, initializes the
    arena again with 13 as its admin. -/
theorem not_controlled : ¬ ∀ tr w, Run (Step sampleEnv) sampleWorld tr w →
    AlongRun Controlled tr w := by
  intro hall
  obtain ⟨tr, t, u, hrun, hstep, ⟨config, hc, hadmin⟩, config', hc', hadmin'⟩ : ∃ tr t u,
      Run (Step sampleEnv) sampleWorld tr t ∧
        Step sampleEnv t (.call [] (.initializeArena (sampleArgs 13 10))) u ∧
        (∃ config ∈ t.storage.config, config.admin = ⟨10⟩) ∧
        ∃ config' ∈ u.storage.config, config'.admin = ⟨13⟩ :=
    exists_run_call (sampleJoins 10) [] (.initializeArena (sampleArgs 13 10)) (by decide +kernel)
  obtain ⟨hover, -⟩ := (controlled_cons hc hc').mp (hall _ _ (hrun.snoc hstep)).last
  rcases hover with hsame | ⟨-, auths, heq, -⟩
  · rw [hadmin, hadmin'] at hsame
    exact absurd hsame (by decide)
  · cases heq

end InverseArena.CoinArena
