import InverseArena.CoinArena.Replay

/-!
# What a commitment binds to

`submit_choice` and `reveal_choice` write the same choice, which is not kept by
round: `submit_choice` overrides what a commitment has fixed, and `start_round`
carries a revealed choice over into the next round.

Results:
* `Bound.step`: a pending choice was made in this round and opens the
  commitment, if there is one.
* `bindingKept_of_guarded`: the choices that `resolve_round` counts do so in the
  runs in which a player who has committed does not submit, one with a choice
  does not commit, and no round or game starts while a choice is pending.
-/

namespace InverseArena.CoinArena

open Host KeyedMap Transition

variable {G H : Type}

/-- The steps with which a round starts or ends. -/
def startsRound (t : World G H) : Action H → Bool
  | .call _ (.join _) => t.storage.config.any fun config => config.Fills
  | .call _ (.initializeArena _) | .call _ (.startRound _) | .call _ .resolveRound
  | .call _ .autoResolve | .call _ .cleanupArena => true
  | _ => false

/-- The choice that a step makes for `p`. -/
def choiceOf : Action H → Address → Option Choice
  | .call _ (.submitChoice player choice), p => if player = p then some choice else none
  | .call _ (.revealChoice player choice _), p => if player = p then some choice else none
  | _, _ => none

/-- The choice that `p` has made in the present round. -/
def currentChoice : List (World G H × Action H) → Address → Option Choice
  | [], _ => none
  | (t, a) :: tr, p => if startsRound t a then none else choiceOf a p <|> currentChoice tr p

/-- The choice opens the hash. -/
def Opens (env : Env G H) (choice : Choice) (hash : BytesN 32) : Prop :=
  ∃ salt, env.keccak256 (preimage choice salt) = hash

/-- What is counted when a round is resolved, after the steps `tr` in the state `t`:
    choices made in this round, which open the player's commitment if there is one. -/
def CountsBound (env : Env G H) (tr : List (World G H × Action H)) (t : World G H) : Prop :=
  ∀ p ∈ (firstPass t).activePlayers, ∀ choice,
    (firstPass t).world.storage.loadPlayerChoice p = some choice →
      (∀ hash, t.storage.loadCommitHash p t.round = some hash → Opens env choice hash) ∧
        currentChoice tr p = some choice

/-- If the last step was a resolution, it has counted only choices that are bound. -/
def BindingKept (env : Env G H) : List (World G H × Action H) → World G H → Prop
  | (t, .call _ .resolveRound) :: tr, _ | (t, .call _ .autoResolve) :: tr, _ =>
    CountsBound env tr t
  | _, _ => True

/-- Players who have committed do not submit, those with a choice do not commit,
    and nothing starts while a choice is pending. -/
def BindingGuarded (_ : List (World G H × Action H)) (t : World G H) : Action H → Prop
  | .call _ (.submitChoice player _) => t.storage.loadCommitHash player t.round = none
  | .call _ (.commitChoice player _) => t.storage.loadPlayerChoice player = none
  | .call _ (.startRound _) | .call _ (.initializeArena _) =>
    ∀ p ∈ t.storage.loadAllPlayers, t.storage.loadPlayerChoice p = none
  | _ => True

instance (tr : List (World G H × Action H)) (t : World G H) (a : Action H) :
    Decidable (BindingGuarded tr t a) := by
  unfold BindingGuarded
  split <;> infer_instance

/-! ## Pending choices -/

/-- After the steps `tr`, which meet the condition. -/
structure Bound (env : Env G H) (tr : List (World G H × Action H)) (w : World G H) : Prop where
  listed : ∀ p choice, w.storage.choice p = some choice → p ∈ w.storage.loadAllPlayers
  started : ∀ config, w.storage.config = some config → config.state = .Open →
    ∀ p, w.storage.choice p = none
  opens : ∀ p choice hash, w.storage.choice p = some choice →
    w.storage.commitHash (p, w.round) = some hash → Opens env choice hash
  current : ∀ p choice, w.storage.choice p = some choice → currentChoice tr p = some choice

variable {env : Env G H} {auths : List Address} {t u w : World G H} {a : Action H} {c : Call}
  {tr : List (World G H × Action H)}

/-- A state without any pending choice. -/
theorem Bound.of_none (h : ∀ p, u.storage.choice p = none) : Bound env tr u where
  listed p choice hp := by rw [h p] at hp; cases hp
  started _ _ _ := h
  opens p choice hash hp := by rw [h p] at hp; cases hp
  current p choice hp := by rw [h p] at hp; cases hp

/-- A step that makes no choice and no commitment, and starts no round. -/
theorem Bound.frame (h : Bound env tr t) (hstart : startsRound t a = false)
    (hchoice : ∀ p, choiceOf a p = none) (hsame : u.storage.choice = t.storage.choice)
    (hplayers : ∀ p ∈ t.storage.loadAllPlayers, p ∈ u.storage.loadAllPlayers)
    (hcommit : u.storage.commitHash = t.storage.commitHash) (hround : u.round = t.round)
    (hopen : ∀ config', u.storage.config = some config' → config'.state = .Open →
      ∃ config, t.storage.config = some config ∧ config.state = .Open) :
    Bound env ((t, a) :: tr) u where
  listed p choice hp := hplayers p (h.listed p choice (hsame ▸ hp))
  started config' hc' hopen' := by
    obtain ⟨config, hc, hstate⟩ := hopen config' hc' hopen'
    rw [hsame]
    exact h.started config hc hstate
  opens p choice hash hp hh := by
    rw [hcommit, hround] at hh
    exact h.opens p choice hash (hsame ▸ hp) hh
  current p choice hp := by
    unfold currentChoice
    rw [hstart, hchoice p]
    exact h.current p choice (hsame ▸ hp)

/-- A choice that opens the player's commitment, if there is one. -/
theorem Bound.choose (h : Bound env tr t) {player : Address} {choice : Choice}
    {config : ArenaConfig} (hstart : startsRound t a = false)
    (hchoice : ∀ p, choiceOf a p = if player = p then some choice else none)
    (hsame : u.storage.choice = Function.update t.storage.choice player (some choice))
    (hmem : player ∈ t.storage.loadAllPlayers) (hplayers : u.storage.players = t.storage.players)
    (hcommit : u.storage.commitHash = t.storage.commitHash) (hround : u.round = t.round)
    (hc : u.storage.config = some config) (hplaying : config.state = .InProgress)
    (hopens : ∀ hash, t.storage.commitHash (player, t.round) = some hash →
      Opens env choice hash) : Bound env ((t, a) :: tr) u where
  listed p x hp := by
    show p ∈ u.storage.players.getD []
    rw [hplayers]
    rw [hsame] at hp
    by_cases hpp : p = player
    · exact hpp ▸ hmem
    · rw [Function.update_of_ne hpp] at hp
      exact h.listed p x hp
  started config' hc' hopen := by
    cases hc.symm.trans hc'
    rw [hplaying] at hopen
    cases hopen
  opens p x hash hp hh := by
    rw [hcommit, hround] at hh
    rw [hsame] at hp
    by_cases hpp : p = player
    · subst hpp
      rw [Function.update_self] at hp
      cases hp
      exact hopens hash hh
    · rw [Function.update_of_ne hpp] at hp
      exact h.opens p x hash hp hh
  current p x hp := by
    unfold currentChoice
    rw [hstart, hchoice p]
    rw [hsame] at hp
    by_cases hpp : p = player
    · subst hpp
      rw [Function.update_self] at hp
      simpa using hp
    · rw [Function.update_of_ne hpp] at hp
      rw [if_neg (Ne.symm hpp)]
      exact h.current p x hp

/-- A commitment by a player without a pending choice. -/
theorem Bound.commit (h : Bound env tr t) {player : Address} {hash : BytesN 32}
    (hnone : t.storage.choice player = none) (hsame : u.storage.choice = t.storage.choice)
    (hplayers : u.storage.players = t.storage.players) (hround : u.round = t.round)
    (hcommit : u.storage.commitHash =
      Function.update t.storage.commitHash (player, t.round) (some hash))
    (hconfig : u.storage.config = t.storage.config) :
    Bound env ((t, .call auths (.commitChoice player hash)) :: tr) u where
  listed p choice hp := by
    show p ∈ u.storage.players.getD []
    rw [hplayers]
    exact h.listed p choice (hsame ▸ hp)
  started config hc hopen := by
    rw [hsame]
    exact h.started config (hconfig ▸ hc) hopen
  opens p choice hash' hp hh := by
    rw [hsame] at hp
    have hpp : p ≠ player := by
      rintro rfl
      rw [hnone] at hp
      cases hp
    rw [hcommit, hround, Function.update_of_ne fun heq => hpp (congrArg Prod.fst heq)] at hh
    exact h.opens p choice hash' hp hh
  current p choice hp := h.current p choice (hsame ▸ hp)

/-- Calls that neither choose nor commit nor concern rounds. -/
theorem quiet_of_abstract (t : World G H) (auths : List Address) (h : c.isTuning || c.isGlobal) :
    startsRound t (.call auths c) = false ∧ ∀ p, choiceOf (.call auths c : Action H) p = none := by
  cases c with
  | pause | unpause | updateTreasury => exact ⟨rfl, fun _ => rfl⟩
  | setCreationCooldown | setSlashRate => exact ⟨rfl, fun _ => rfl⟩
  | updateRoundBounds | updatePlatformFee => exact ⟨rfl, fun _ => rfl⟩
  | _ => cases h

/-- Only listed players have choices. -/
theorem Bound.eq_none_of_listed (h : Bound env tr t)
    (hnone : ∀ p ∈ t.storage.loadAllPlayers, t.storage.choice p = none) (p : Address) :
    t.storage.choice p = none := by
  rw [Option.eq_none_iff_forall_ne_some]
  intro choice hc
  rw [hnone p (h.listed p choice hc)] at hc
  cases hc

/-- No choice outlives the choices of the listed players. -/
theorem Bound.without_eq_none (h : Bound env tr t) (p : Address) :
    without t.storage.choice t.storage.loadAllPlayers p = none := by
  by_cases hp : p ∈ t.storage.loadAllPlayers
  · exact without_of_mem hp
  · rw [without_of_notMem hp, Option.eq_none_iff_forall_ne_some]
    exact fun choice hc => hp (h.listed p choice hc)

theorem Bound.effect (h : Bound env tr t) (heff : Effect env auths t c u)
    (hg : BindingGuarded tr t (.call auths c)) : Bound env ((t, .call auths c) :: tr) u := by
  cases heff with
  | initialized => exact .of_none (h.eq_none_of_listed hg)
  | @configured _ _ _ config hc _ hopen =>
    exact h.frame rfl (fun _ => rfl) rfl (fun _ => id) rfl rfl fun _ _ _ => ⟨config, hc, hopen⟩
  | @tuned _ config _ _ _ _ _ _ ht hc _ hc' =>
    obtain ⟨hstart, hchoice⟩ := quiet_of_abstract (c := c) t auths (by simp [ht])
    refine h.frame hstart hchoice rfl (fun _ => id) rfl rfl fun config₁ hc₁ hopen => ?_
    cases hc'.symm.trans hc₁
    exact ⟨config, hc, hopen⟩
  | regulated hglobal =>
    obtain ⟨hstart, hchoice⟩ := quiet_of_abstract (c := c) t auths (by simp [hglobal])
    exact h.frame hstart hchoice rfl (fun _ => id) rfl rfl fun config hc hopen =>
      ⟨config, hc, hopen⟩
  | started hc =>
    exact h.frame rfl (fun _ => rfl) rfl (fun _ => id) rfl rfl fun _ hc' hopen => by
      cases hc'
      cases hopen
  | finished hc =>
    exact h.frame rfl (fun _ => rfl) rfl (fun _ => id) rfl rfl fun _ hc' hopen => by
      cases hc'
      cases hopen
  | cancelled _ _ hby =>
    rcases hby with ⟨rfl, -⟩ | ⟨rfl, -⟩
    · exact h.frame rfl (fun _ => rfl) rfl (fun _ => id) rfl rfl fun _ hc' hopen => by
        cases hc'
        cases hopen
    · exact h.frame rfl (fun _ => rfl) rfl (fun _ => id) rfl rfl fun _ hc' hopen => by
        cases hc'
        cases hopen
  | @accepted pending config hc =>
    refine h.frame rfl (fun _ => rfl) rfl (fun _ => id) rfl rfl fun _ hc' hopen => ?_
    cases hc'
    exact ⟨config, hc, hopen⟩
  | @joined player config _ _ _ _ _ hc _ hopen =>
    exact .of_none (h.started config hc hopen)
  | chosen hc _ hplaying hmem =>
    exact h.choose rfl (fun _ => rfl) rfl hmem rfl rfl rfl hc hplaying fun hash hh => by
      have hnone : t.storage.commitHash (_, t.round) = none := hg
      rw [hnone] at hh
      cases hh
  | roundStarted => exact .of_none (h.eq_none_of_listed hg)
  | committed => exact h.commit hg rfl rfl rfl rfl rfl
  | @revealed player choice salt config hc _ hplaying hmem _ _ hcommit =>
    refine h.choose rfl (fun _ => rfl) rfl hmem rfl rfl rfl hc hplaying fun hash hh => ?_
    exact ⟨salt, Option.some.inj (hcommit.symm.trans hh)⟩
  | resolved => exact .of_none h.without_eq_none
  | cleaned =>
    rw [ArenaStorage.cleanupArenaData_eq]
    exact .of_none h.without_eq_none
  | staked _ _ _ hc =>
    refine h.frame rfl (fun _ => rfl) rfl (fun _ => id) rfl rfl fun _ hc' hopen => ?_
    cases hc'
    exact ⟨_, hc, hopen⟩
  | unstaked _ _ hc =>
    refine h.frame rfl (fun _ => rfl) rfl (fun _ => id) rfl rfl fun _ hc' hopen => ?_
    cases hc'
    exact ⟨_, hc, hopen⟩
  | _ => exact h.frame rfl (fun _ => rfl) rfl (fun _ => id) rfl rfl fun config hc hopen =>
      ⟨config, hc, hopen⟩

theorem Bound.step (h : Bound env tr t) (hs : Step env t a u) (hg : BindingGuarded tr t a) :
    Bound env ((t, a) :: tr) u := by
  cases hs with
  | call _ hexec => exact h.effect (exec_effect hexec) hg
  | _ => exact h.frame rfl (fun _ => rfl) rfl (fun _ => id) rfl rfl fun config hc hopen =>
      ⟨config, hc, hopen⟩

theorem bound_of_run {globals : G} {outside : H} {now sequence : ℕ}
    (hrun : Run (Step env) (.fresh globals outside now sequence) tr w)
    (heach : EachStep BindingGuarded tr) : Bound env tr w := by
  induction hrun with
  | nil => exact .of_none fun _ => rfl
  | snoc _ hs ih => exact (ih heach.2).step hs heach.1

/-! ## Whole runs -/

theorem Bound.countsBound (h : Bound env tr t) : CountsBound env tr t := by
  intro p _ choice hp
  have hsame : (firstPass t).world.storage.choice = t.storage.choice := by
    rw [(firstPass_tallied t).rest]
  have hpending : t.storage.choice p = some choice := by
    rw [← hsame]
    exact hp
  exact ⟨fun hash hh => h.opens p choice hash hpending hh, h.current p choice hpending⟩

/-- In every run of any calls by any callers, whose steps are guarded: each choice
    counted for a player who has committed opens the commitment, and each choice
    counted was made in the round it is counted in. -/
theorem bindingKept_of_guarded {globals : G} {outside : H} {now sequence : ℕ}
    (hrun : Run (Step env) (.fresh globals outside now sequence) tr w)
    (heach : EachStep BindingGuarded tr) : AlongRun (BindingKept env) tr w := by
  refine hrun.alongRun_of_each (fun tr t hr heach => ?_) heach
  cases hr with
  | nil => trivial
  | @snoc tr t a u hr hs =>
    cases a with
    | call auths c =>
      cases c with
      | resolveRound | autoResolve => exact (bound_of_run hr heach.2).countsBound
      | _ => trivial
    | _ => trivial

/-- The salt of the sample commitments. -/
def zeroSalt : BytesN 32 := Vector.replicate 32 0

/-- Player 11 commits to a choice. -/
def sampleCommit (choice : Choice) : Move :=
  .call [⟨11⟩] (.commitChoice ⟨11⟩ (keccakOfZeroSalt (preimage choice zeroSalt)))

/-- Player 11 commits to heads and reveals it, and the round is resolved. -/
theorem bindingKept_of_guarded_sample : ∃ tr w, Run (Step sampleEnv) sampleWorld tr w ∧
    w.round = 1 ∧ w.storage.winner = some ⟨11⟩ ∧ AlongRun (BindingKept sampleEnv) tr w := by
  obtain ⟨tr, w, hrun, heach, hround, hwinner⟩ : ∃ tr w, Run (Step sampleEnv) sampleWorld tr w ∧
      EachStep BindingGuarded tr ∧ w.round = 1 ∧ w.storage.winner = some ⟨11⟩ :=
    exists_run (sampleJoins 10 ++ [.call [⟨10⟩] .startGame, sampleCommit .Heads,
      .call [⟨11⟩] (.revealChoice ⟨11⟩ .Heads zeroSalt),
      .call [⟨12⟩] (.submitChoice ⟨12⟩ .Tails), .call [] .resolveRound]) (by decide +kernel)
  exact ⟨tr, w, hrun, hround, hwinner, bindingKept_of_guarded hrun heach⟩

/-- No choice of tails opens a commitment to heads. -/
theorem not_opens_tails :
    ¬ Opens sampleEnv .Tails (keccakOfZeroSalt (preimage .Heads zeroSalt)) := by
  rintro ⟨salt, heq⟩
  have htails : keccakOfZeroSalt (preimage .Tails salt) =
      keccakOfZeroSalt (preimage .Tails zeroSalt) := rfl
  exact absurd (htails.symm.trans heq) (by decide)

/-- Player 11 commits to heads and submits tails. -/
theorem not_bindingKept : ¬ ∀ tr w, Run (Step sampleEnv) sampleWorld tr w →
    AlongRun (BindingKept sampleEnv) tr w := by
  intro hall
  obtain ⟨tr, t, u, hrun, hstep, hmem, hchoice, hcommit⟩ : ∃ tr t u,
      Run (Step sampleEnv) sampleWorld tr t ∧ Step sampleEnv t (.call [] .resolveRound) u ∧
        ⟨11⟩ ∈ (firstPass t).activePlayers ∧
        (firstPass t).world.storage.loadPlayerChoice ⟨11⟩ = some .Tails ∧
        t.storage.loadCommitHash ⟨11⟩ t.round =
          some (keccakOfZeroSalt (preimage .Heads zeroSalt)) :=
    exists_run_call (sampleJoins 10 ++ [.call [⟨10⟩] .startGame, sampleCommit .Heads,
      .call [⟨11⟩] (.submitChoice ⟨11⟩ .Tails), .call [⟨12⟩] (.submitChoice ⟨12⟩ .Heads)])
      [] .resolveRound (by decide +kernel)
  exact not_opens_tails (((hall _ _ (hrun.snoc hstep)).last _ hmem _ hchoice).1 _ hcommit)

end InverseArena.CoinArena
