import InverseArena.Arena.RoundClock
import InverseArena.Vault.Reference

/-!
# Commitments bind choices to their round

`submit_commitment` and `reveal_choice` (`contract/arena/src/lib.rs`, lines
324-399) between the clearing at the start and at the end of a round.

Results:
* `RoundInv.step`: commitments and choices are stored only for the round being
  played and for players; a stored commitment is the player's last one since
  the round started; a stored choice was revealed since and opens it.
* `RoundInv.held_step`: what a step does to the commitments that are held for
  the round being played.
* `tallied_choice_opens_last_commitment`: so every choice that `resolve_round`
  tallies opens the last commitment of its player.
-/

namespace InverseArena.Arena

open MachineInt Transition

variable {H : Type}

/-- The authorizations and the hash of a `submit_commitment` of player `p`. -/
def Action.commitmentBy (p : Address) : Action H → Option (List Address × BytesN 32)
  | .call auths (.submitCommitment q commitment) => if q = p then some (auths, commitment) else none
  | _ => none

/-- The last commitment of player `p` among the steps `tr`, and the world in
    which it was made. -/
def lastCommitment (p : Address) (tr : List (World H × Action H)) :
    Option (World H × List Address × BytesN 32) :=
  tr.findSome? fun e => (e.2.commitmentBy p).map fun r => (e.1, r)

/-- No two openings of one commitment disagree on the choice, as no collision
    of SHA-256 is known. -/
def Binding (env : Env H) : Prop := ∀ choice salt choice' salt',
  computeCommitment env choice salt = computeCommitment env choice' salt' → choice = choice'

theorem lastCommitment_cons_of_none {tr : List (World H × Action H)} {w : World H} {a : Action H}
    {p : Address} (ha : a.commitmentBy p = none) :
    lastCommitment p ((w, a) :: tr) = lastCommitment p tr := by
  unfold lastCommitment
  rw [List.findSome?_cons_of_isNone]
  simp [ha]

/-- What is stored about the round being played, against the history. -/
structure RoundInv (env : Env H) (tr : List (World H × Action H)) (w : World H) : Prop where
  keyed : ∀ p n, w.storage.commitment (p, n) ≠ none ∨ w.storage.choice (p, n) ≠ none →
    ∃ config, w.storage.config = some config ∧ n = config.round ∧
      p ∈ w.storage.loadAllPlayers ∧ config.state ≠ .Open
  committed : ∀ config p commitment, w.storage.config = some config →
    w.storage.commitment (p, config.round) = some commitment →
    ∃ t auths, lastCommitment p (sinceStart tr) = some (t, auths, commitment) ∧ p ∈ auths ∧
      t.now < config.commitDeadline
  revealed : ∀ config p choice, w.storage.config = some config →
    w.storage.choice (p, config.round) = some choice →
    config.commitDeadline ≤ w.now ∧ ∃ salt t auths,
      (t, .call auths (.revealChoice p choice salt)) ∈ sinceStart tr ∧ p ∈ auths ∧
      w.storage.commitment (p, config.round) = some (computeCommitment env choice salt)

section Steps

variable {env : Env H} {tr tr' : List (World H × Action H)} {w w' : World H} {a : Action H}

/-- Nothing is stored: at the beginning, and whenever a round was cleared. -/
theorem RoundInv.of_none (hcom : ∀ k, w.storage.commitment k = none)
    (hch : ∀ k, w.storage.choice k = none) : RoundInv env tr w where
  keyed := fun p n h => by
    rcases h with h | h
    · exact absurd (hcom _) h
    · exact absurd (hch _) h
  committed := fun config p commitment _ h => by rw [hcom] at h; cases h
  revealed := fun config p choice _ h => by rw [hch] at h; cases h

/-- In an open arena nothing is stored. -/
theorem RoundInv.none_of_open (h : RoundInv env tr w) {config : ArenaConfig}
    (hc : w.storage.config = some config) (hs : config.state = .Open) :
    (∀ k, w.storage.commitment k = none) ∧ ∀ k, w.storage.choice k = none := by
  have hno : ∀ k, ¬ (w.storage.commitment k ≠ none ∨ w.storage.choice k ≠ none) := by
    intro k hk
    obtain ⟨config', hc', -, -, hne⟩ := h.keyed k.1 k.2 hk
    obtain rfl := Option.some.inj (hc.symm.trans hc')
    exact hne hs
  exact ⟨fun k => by_contra fun hk => hno k (.inl hk), fun k => by_contra fun hk => hno k (.inr hk)⟩

/-- Clearing the round being played leaves nothing. -/
theorem RoundInv.cleared (h : RoundInv env tr w) {config : ArenaConfig}
    (hc : w.storage.config = some config) (k : Address × ℕ) :
    (if k.2 = config.round ∧ k.1 ∈ w.storage.loadAllPlayers then none
      else w.storage.commitment k) = none ∧
    (if k.2 = config.round ∧ k.1 ∈ w.storage.loadAllPlayers then none
      else w.storage.choice k) = none := by
  have hall : w.storage.commitment k ≠ none ∨ w.storage.choice k ≠ none →
      k.2 = config.round ∧ k.1 ∈ w.storage.loadAllPlayers := by
    intro hk
    obtain ⟨config', hc', hn, hp, -⟩ := h.keyed k.1 k.2 hk
    obtain rfl := Option.some.inj (hc.symm.trans hc')
    exact ⟨hn, hp⟩
  split_ifs with hk
  · exact ⟨rfl, rfl⟩
  · exact ⟨by_contra fun hne => hk (hall (.inl hne)), by_contra fun hne => hk (hall (.inr hne))⟩

/-- A step that neither starts a round nor touches commitments and choices. -/
theorem RoundInv.frame (h : RoundInv env tr w) (hstart : a.started = none)
    (hby : ∀ p, a.commitmentBy p = none) (hcom : w'.storage.commitment = w.storage.commitment)
    (hch : w'.storage.choice = w.storage.choice) (hpl : w'.storage.players = w.storage.players)
    (hnow : w.now ≤ w'.now)
    (hconfig : ∀ config, w.storage.config = some config → ∃ config',
      w'.storage.config = some config' ∧ config'.round = config.round ∧
      config'.commitDeadline = config.commitDeadline ∧
      (config.state ≠ .Open → config'.state ≠ .Open)) : RoundInv env ((w, a) :: tr) w' := by
  have hback : ∀ config', w'.storage.config = some config' →
      ∀ k, w'.storage.commitment k ≠ none ∨ w'.storage.choice k ≠ none →
        ∃ config, w.storage.config = some config ∧ config'.round = config.round ∧
          config'.commitDeadline = config.commitDeadline := by
    intro config' hc' k hk
    rw [hcom, hch] at hk
    obtain ⟨config, hc, -⟩ := h.keyed k.1 k.2 hk
    obtain ⟨config'', hc'', hr, hd, -⟩ := hconfig config hc
    obtain rfl := Option.some.inj (hc'.symm.trans hc'')
    exact ⟨config, hc, hr, hd⟩
  refine ⟨fun p n hk => ?_, fun config' p commitment hc' hk => ?_,
    fun config' p choice hc' hk => ?_⟩
  · rw [hcom, hch] at hk
    obtain ⟨config, hc, hn, hp, hs⟩ := h.keyed p n hk
    obtain ⟨config', hc', hr, -, hs'⟩ := hconfig config hc
    refine ⟨config', hc', by rw [hr]; exact hn, ?_, hs' hs⟩
    unfold ArenaStorage.loadAllPlayers
    rw [hpl]
    exact hp
  · obtain ⟨config, hc, hr, hd⟩ := hback config' hc' (p, config'.round) (.inl (by rw [hk]; simp))
    rw [hcom, hr] at hk
    obtain ⟨t, auths, hlast, hauth, hbefore⟩ := h.committed config p commitment hc hk
    refine ⟨t, auths, ?_, hauth, by rw [hd]; exact hbefore⟩
    rw [sinceStart_cons hstart, lastCommitment_cons_of_none (hby p)]
    exact hlast
  · obtain ⟨config, hc, hr, hd⟩ := hback config' hc' (p, config'.round) (.inr (by rw [hk]; simp))
    rw [hch, hr] at hk
    obtain ⟨hafter, salt, t, auths, hmem, hauth, hopen⟩ := h.revealed config p choice hc hk
    refine ⟨by rw [hd]; exact hafter.trans hnow, salt, t, auths, ?_, hauth, ?_⟩
    · rw [sinceStart_cons hstart]
      exact List.mem_cons_of_mem _ hmem
    · rw [hcom, hr]
      exact hopen

theorem ArenaConfig.round_eq_of_roundCount {config config' : ArenaConfig}
    (h : config'.roundCount = config.roundCount) : config'.round = config.round := by
  unfold ArenaConfig.round
  rw [h]

/-- A commitment: no choice is stored yet, because choices are revealed only
    from the deadline on. -/
theorem RoundInv.commit (h : RoundInv env tr w) (hw : WellFormed w) {auths : List Address}
    {player : Address} {commitment : BytesN 32} {config : ArenaConfig}
    (ha : player ∈ auths) (hc : w.storage.config = some config) (hs : config.state = .Active)
    (hnow : w.now < config.commitDeadline) (hplayer : (w.storage.player player).isSome = true)
    (hcom : w'.storage.commitment =
      Function.update w.storage.commitment (player, config.round) (some commitment))
    (hch : w'.storage.choice = w.storage.choice) (hpl : w'.storage.players = w.storage.players)
    (hc' : w'.storage.config = w.storage.config) :
    RoundInv env ((w, .call auths (.submitCommitment player commitment)) :: tr) w' := by
  have hall : w'.storage.loadAllPlayers = w.storage.loadAllPlayers := by
    unfold ArenaStorage.loadAllPlayers; rw [hpl]
  refine ⟨fun p n hk => ?_, fun config' p com hconfig hk => ?_,
    fun config' p choice hconfig hk => ?_⟩
  · rw [hc', hall]
    by_cases hp : (p, n) = (player, config.round)
    · obtain ⟨rfl, rfl⟩ := Prod.mk.inj hp
      exact ⟨config, hc, rfl, (hw.known p).mp hplayer, by rw [hs]; simp⟩
    · rw [hcom, Function.update_of_ne hp, hch] at hk
      exact h.keyed p n hk
  · rw [hc'] at hconfig
    obtain rfl := Option.some.inj (hc.symm.trans hconfig)
    rw [sinceStart_cons rfl]
    by_cases hp : p = player
    · subst hp
      rw [hcom, Function.update_self] at hk
      obtain rfl := Option.some.inj hk
      exact ⟨w, auths, by simp [lastCommitment, Action.commitmentBy], ha, hnow⟩
    · rw [hcom, Function.update_of_ne (fun heq => hp (Prod.mk.inj heq).1)] at hk
      have hother : Action.commitmentBy p
          (.call auths (.submitCommitment player commitment) : Action H) = none :=
        if_neg (Ne.symm hp)
      rw [lastCommitment_cons_of_none hother]
      exact h.committed config p com hc hk
  · rw [hc'] at hconfig
    obtain rfl := Option.some.inj (hc.symm.trans hconfig)
    rw [hch] at hk
    have hafter := (h.revealed config p choice hc hk).1
    omega

/-- A reveal stores a choice that opens the stored commitment. -/
theorem RoundInv.reveal (h : RoundInv env tr w) {auths : List Address} {player : Address}
    {choice : Choice} {salt : BytesN 32} {config : ArenaConfig} (ha : player ∈ auths)
    (hc : w.storage.config = some config) (hnow : config.commitDeadline ≤ w.now)
    (hopen : w.storage.commitment (player, config.round) = some (computeCommitment env choice salt))
    (hcom : w'.storage.commitment = w.storage.commitment)
    (hch : w'.storage.choice =
      Function.update w.storage.choice (player, config.round) (some choice))
    (hpl : w'.storage.players = w.storage.players) (hc' : w'.storage.config = w.storage.config)
    (hnow' : w'.now = w.now) :
    RoundInv env ((w, .call auths (.revealChoice player choice salt)) :: tr) w' := by
  have hall : w'.storage.loadAllPlayers = w.storage.loadAllPlayers := by
    unfold ArenaStorage.loadAllPlayers; rw [hpl]
  refine ⟨fun p n hk => ?_, fun config' p com hconfig hk => ?_, fun config' p c hconfig hk => ?_⟩
  · rw [hc', hall]
    by_cases hp : (p, n) = (player, config.round)
    · obtain ⟨rfl, rfl⟩ := Prod.mk.inj hp
      exact h.keyed p config.round (.inl (by rw [hopen]; simp))
    · rw [hcom, hch, Function.update_of_ne hp] at hk
      exact h.keyed p n hk
  · rw [hc'] at hconfig
    rw [hcom] at hk
    rw [sinceStart_cons rfl, lastCommitment_cons_of_none rfl]
    exact h.committed config' p com hconfig hk
  · rw [hc'] at hconfig
    obtain rfl := Option.some.inj (hc.symm.trans hconfig)
    rw [sinceStart_cons rfl, hcom, hnow']
    by_cases hp : p = player
    · subst hp
      rw [hch, Function.update_self] at hk
      obtain rfl := Option.some.inj hk
      exact ⟨hnow, salt, w, auths, List.mem_cons_self, ha, hopen⟩
    · rw [hch, Function.update_of_ne (fun heq => hp (Prod.mk.inj heq).1)] at hk
      obtain ⟨hafter, salt', t, auths', hmem, hauth, hopen'⟩ := h.revealed config p c hc hk
      exact ⟨hafter, salt', t, auths', List.mem_cons_of_mem _ hmem, hauth, hopen'⟩

theorem RoundInv.effect {auths : List Address} {c : Call} (h : RoundInv env tr w)
    (hw : WellFormed w) (he : Effect env auths w c w') :
    RoundInv env ((w, .call auths c) :: tr) w' := by
  cases he with
  | initialized ha hnone hfee hlim hbal =>
    have hfresh := hw.blank hnone
    refine RoundInv.of_none (fun k => ?_) (fun k => ?_)
    · change w.storage.commitment k = none
      rw [hfresh]; rfl
    · change w.storage.choice k = none
      rw [hfresh]; rfl
  | administered hadm hc hc' hlim =>
    refine h.frame ?_ (fun p => ?_) rfl rfl rfl le_rfl (fun config hconfig => ?_)
    · refine started_of_ne fun d hd => ?_
      rw [hd] at hadm
      cases hadm
    · cases c with
      | submitCommitment q com => cases hadm
      | _ => rfl
    · obtain rfl := Option.some.inj (hc.symm.trans hconfig)
      exact ⟨_, hc', rfl, rfl, id⟩
  | joined hguard ha hc hp hs hne hban hnone hmax htr hdep =>
    obtain ⟨hcom, hch⟩ := h.none_of_open hc hs
    exact RoundInv.of_none hcom hch
  | committed ha hc hp hs hnow hpl hpa =>
    exact h.commit hw ha hc hs hnow (by rw [hpl]; rfl) rfl rfl rfl rfl
  | revealed ha hc hp hpl hpa hchoice hnow hopen =>
    exact h.reveal ha hc hnow hopen rfl rfl rfl rfl rfl
  | roundStarted hc ha hp hs hmin =>
    exact RoundInv.of_none (fun k => (h.cleared hc k).1) fun k => (h.cleared hc k).2
  | @roundResolved config _ hguard hc ha hp hs hstart hnow =>
    obtain ⟨bps, eliminated, events, heq⟩ := @settleRound_eq H env w config hw.nodup
    rw [heq]
    exact RoundInv.of_none (fun k => (h.cleared hc k).1) fun k => (h.cleared hc k).2
  | cancelled hguard hc ha hp hs hwd =>
    obtain ⟨hcom, hch⟩ := h.none_of_open hc hs
    exact RoundInv.of_none hcom hch
  | expired hguard hc hp hs hnow hwd hpay =>
    refine h.frame rfl (fun _ => rfl) rfl rfl rfl le_rfl (fun config hconfig => ?_)
    obtain rfl := Option.some.inj (hc.symm.trans hconfig)
    exact ⟨_, rfl, rfl, rfl, fun _ => by simp⟩
  | claimed hguard ha hc hp hs hclaimed hwin hwd htotal htr =>
    refine h.frame rfl (fun _ => rfl) rfl rfl rfl le_rfl (fun config hconfig => ?_)
    obtain rfl := Option.some.inj (hc.symm.trans hconfig)
    exact ⟨_, rfl, rfl, rfl, fun _ => by simp⟩
  | forceCancelled hguard hc ha hs =>
    refine h.frame rfl (fun _ => rfl) rfl rfl rfl le_rfl (fun config hconfig => ?_)
    obtain rfl := Option.some.inj (hc.symm.trans hconfig)
    exact ⟨_, rfl, rfl, rfl, fun _ => by simp⟩
  | forceCancelledAgain hguard hc ha hs =>
    exact h.frame rfl (fun _ => rfl) rfl rfl rfl le_rfl fun config hconfig =>
      ⟨config, hconfig, rfl, rfl, id⟩
  | refunded ha hc hs href hpl htr =>
    exact h.frame rfl (fun _ => rfl) rfl rfl rfl le_rfl fun config hconfig =>
      ⟨config, hconfig, rfl, rfl, id⟩

theorem RoundInv.step (h : RoundInv env tr w) (hw : WellFormed w) (hs : Step env w a w') :
    RoundInv env ((w, a) :: tr) w' := by
  cases hs with
  | call _ hexec => exact h.effect hw (exec_effect hexec)
  | external _ =>
    exact h.frame rfl (fun _ => rfl) rfl rfl rfl le_rfl fun config hconfig =>
      ⟨config, hconfig, rfl, rfl, id⟩
  | tick hle _ =>
    exact h.frame rfl (fun _ => rfl) rfl rfl rfl hle fun config hconfig =>
      ⟨config, hconfig, rfl, rfl, id⟩

/-! ## What is held -/

/-- The commitment of player `p` is held for the round being played. -/
def HoldsCommitment (w : World H) (p : Address) (round : ℕ) (commitment : BytesN 32) : Prop :=
  ∃ config, w.storage.config = some config ∧ config.round = round ∧
    w.storage.commitment (p, round) = some commitment

/-- What is held after a step was held before it, and a choice revealed for it stays, or
    the step commits to it. -/
def HeldBefore (w w' : World H) (a : Action H) (p : Address) (round : ℕ)
    (commitment : BytesN 32) : Prop :=
  HoldsCommitment w p round commitment ∧
      (w.storage.choice (p, round) ≠ none → w'.storage.choice (p, round) ≠ none) ∨
    ∃ config auths, w.storage.config = some config ∧ config.round = round ∧
      a = .call auths (.submitCommitment p commitment)

variable {p : Address} {round : ℕ} {commitment : BytesN 32}

theorem HoldsCommitment.before (h : HoldsCommitment w' p round commitment)
    (hcom : w'.storage.commitment = w.storage.commitment)
    (hch : w'.storage.choice = w.storage.choice)
    (hconfig : ∀ config', w'.storage.config = some config' → ∃ config,
      w.storage.config = some config ∧ config.round = config'.round) :
    HeldBefore w w' a p round commitment := by
  obtain ⟨config', hc', hround, hheld⟩ := h
  obtain ⟨config, hc, hsame⟩ := hconfig config' hc'
  refine .inl ⟨⟨config, hc, hsame.trans hround, by rw [← hcom]; exact hheld⟩, ?_⟩
  rw [hch]
  exact id

theorem HoldsCommitment.not_of_none (hnone : ∀ k, w'.storage.commitment k = none) :
    ¬ HoldsCommitment w' p round commitment := by
  rintro ⟨-, -, -, hheld⟩
  rw [hnone] at hheld
  cases hheld

theorem RoundInv.held_effect {auths : List Address} {c : Call} (h : RoundInv env tr w)
    (hw : WellFormed w) (he : Effect env auths w c w') (hheld : HoldsCommitment w' p round commitment) :
    HeldBefore w w' (.call auths c) p round commitment := by
  cases he with
  | initialized ha hnone hfee hlim hbal =>
    have hfresh := hw.blank hnone
    refine absurd hheld (HoldsCommitment.not_of_none fun k => ?_)
    change w.storage.commitment k = none
    rw [hfresh]
    rfl
  | administered hadm hc hc' hlim =>
    refine hheld.before rfl rfl fun config' hconfig' => ⟨_, hc, ?_⟩
    obtain rfl := Option.some.inj (hc'.symm.trans hconfig')
    rfl
  | joined hguard ha hc hp hs hne hban hnone hmax htr hdep =>
    exact absurd hheld (HoldsCommitment.not_of_none (h.none_of_open hc hs).1)
  | @committed player commitment' config state ha hc hp hs hnow hpl hpa =>
    obtain ⟨config', hc', hround, hstored⟩ := hheld
    obtain rfl := Option.some.inj (hc.symm.trans hc')
    by_cases hp : p = player
    · subst hp
      subst hround
      change Function.update w.storage.commitment (p, config.round) (some commitment')
        (p, config.round) = some commitment at hstored
      rw [Function.update_self] at hstored
      cases hstored
      exact .inr ⟨config, auths, hc, rfl, rfl⟩
    · refine .inl ⟨⟨config, hc, hround, ?_⟩, id⟩
      change Function.update w.storage.commitment (player, config.round) (some commitment')
        (p, round) = some commitment at hstored
      rw [Function.update_of_ne fun heq => hp (Prod.mk.inj heq).1] at hstored
      exact hstored
  | @revealed player choice salt config state ha hc hp hpl hpa hchoice hnow hopen =>
    obtain ⟨config', hc', hround, hstored⟩ := hheld
    refine .inl ⟨⟨config', hc', hround, hstored⟩, fun hrevealed => ?_⟩
    show Function.update w.storage.choice (player, config.round) (some choice) (p, round) ≠ none
    by_cases hk : (p, round) = (player, config.round)
    · rw [hk, Function.update_self]
      exact Option.some_ne_none _
    · rw [Function.update_of_ne hk]
      exact hrevealed
  | roundStarted hc ha hp hs hmin =>
    exact absurd hheld (HoldsCommitment.not_of_none fun k => (h.cleared hc k).1)
  | @roundResolved config _ hguard hc ha hp hs hstart hnow =>
    obtain ⟨bps, eliminated, events, heq⟩ := @settleRound_eq H env w config hw.nodup
    rw [heq] at hheld
    exact absurd hheld (HoldsCommitment.not_of_none fun k => (h.cleared hc k).1)
  | cancelled hguard hc ha hp hs hwd =>
    exact absurd hheld (HoldsCommitment.not_of_none (h.none_of_open hc hs).1)
  | expired hguard hc hp hs hnow hwd hpay =>
    refine hheld.before rfl rfl fun config' hconfig' => ⟨_, hc, ?_⟩
    cases hconfig'
    rfl
  | claimed hguard ha hc hp hs hclaimed hwin hwd htotal htr =>
    refine hheld.before rfl rfl fun config' hconfig' => ⟨_, hc, ?_⟩
    cases hconfig'
    rfl
  | forceCancelled hguard hc ha hs =>
    refine hheld.before rfl rfl fun config' hconfig' => ⟨_, hc, ?_⟩
    cases hconfig'
    rfl
  | forceCancelledAgain hguard hc ha hs =>
    exact hheld.before rfl rfl fun config' hconfig' => ⟨config', hconfig', rfl⟩
  | refunded ha hc hs href hpl htr =>
    exact hheld.before rfl rfl fun config' hconfig' => ⟨config', hconfig', rfl⟩

theorem RoundInv.held_step (h : RoundInv env tr w) (hw : WellFormed w) (hs : Step env w a w')
    (hheld : HoldsCommitment w' p round commitment) : HeldBefore w w' a p round commitment := by
  cases hs with
  | call _ hexec => exact h.held_effect hw (exec_effect hexec) hheld
  | external _ => exact hheld.before rfl rfl fun config' hconfig' => ⟨config', hconfig', rfl⟩
  | tick _ _ => exact hheld.before rfl rfl fun config' hconfig' => ⟨config', hconfig', rfl⟩

end Steps

/-! ## Whole runs -/

section Runs

variable {env : Env H} {outside : H} {now : ℕ} {tr : List (World H × Action H)} {w : World H}

theorem roundInv_of_run (hrun : Run (Step env) (World.fresh outside now) tr w) :
    RoundInv env tr w :=
  hrun.history (RoundInv.of_none (fun _ => rfl) (fun _ => rfl)) fun _ _ _ _ hr hi hs =>
    hi.step (wellFormed_of_run hr) hs

theorem Step.active_of_resolve {auths : List Address} {w' : World H}
    (h : Step env w (.call auths .resolveRound) w') : InState w .Active := by
  cases h with
  | call _ hexec =>
    cases exec_effect hexec with
    | administered hadm => cases hadm
    | roundResolved hguard hc ha hp hs hstart hnow => exact ⟨_, hc, hs⟩

/-- `resolve_round` counts `choice` for player `p` in round `config.round`. -/
def Tallied (w : World H) (config : ArenaConfig) (p : Address) (choice : Choice) : Prop :=
  w.storage.config = some config ∧ p ∈ w.storage.loadAllPlayers ∧
    (w.storage.playerState p).active = true ∧
    w.storage.choice (p, config.round) = some choice

theorem exists_tallied {config : ArenaConfig} {choice : Choice}
    (hc : w.storage.config = some config) : choice ∈ activeChoices w.storage config.round ↔
      ∃ p, Tallied w config p choice := by
  rw [mem_activeChoices]
  constructor
  · rintro ⟨p, hp, ha, hch⟩
    exact ⟨p, hc, hp, ha, hch⟩
  · rintro ⟨p, -, hp, ha, hch⟩
    exact ⟨p, hp, ha, hch⟩

/-- In every run: commitments and choices are stored only for the round being
    played and for players, and none in an open arena. Each of the choices that
    `resolve_round` tallies is that of a player. Whatever choice it tallies for a
    player was revealed by that player since the `start_round` of the round, and
    opens the last commitment the player made since then, strictly before the
    deadline; no other choice opens it. -/
theorem tallied_choice_opens_last_commitment
    (hrun : Run (Step env) (World.fresh outside now) tr w) :
    (∀ p n, w.storage.commitment (p, n) ≠ none ∨ w.storage.choice (p, n) ≠ none →
      ∃ config, w.storage.config = some config ∧ n = satAddU32 config.roundCount 1 ∧
        p ∈ w.storage.loadAllPlayers ∧ config.state ≠ .Open) ∧
    ∀ auths w' config, Step env w (.call auths .resolveRound) w' →
      w.storage.config = some config →
      (∀ choice, choice ∈ activeChoices w.storage config.round ↔ ∃ p, Tallied w config p choice) ∧
      ∀ p choice, Tallied w config p choice →
        ∃ t₀ d config₀, lastStart tr = some (t₀, d) ∧ t₀.storage.config = some config₀ ∧
          config₀.round = config.round ∧ config.commitDeadline = satAddU64 t₀.now d ∧
          ∃ salt,
            (∃ t auths, (t, .call auths (.revealChoice p choice salt)) ∈ sinceStart tr ∧
              p ∈ auths) ∧
            (∃ t auths, lastCommitment p (sinceStart tr) =
                some (t, auths, computeCommitment env choice salt) ∧ p ∈ auths ∧
              t.now < config.commitDeadline) ∧
            (Binding env → ∀ choice' salt', computeCommitment env choice' salt' =
              computeCommitment env choice salt → choice' = choice) := by
  have hinv := roundInv_of_run hrun
  have hclock := roundClock_of_run hrun
  refine ⟨hinv.keyed, fun auths w' config hstep hc => ⟨fun choice => exists_tallied hc, ?_⟩⟩
  rintro p choice ⟨-, -, -, hch⟩
  obtain ⟨config', hc', hs⟩ := hstep.active_of_resolve
  obtain rfl := Option.some.inj (hc.symm.trans hc')
  cases hlast : lastStart tr with
  | none => exact absurd ⟨config, hc, hs⟩ (hclock.idle hlast)
  | some e =>
    obtain ⟨t₀, d⟩ := e
    obtain ⟨-, -, -, config', config₀, hc', hc₀, hdl, hcount⟩ := hclock.running t₀ d hlast
    obtain rfl := Option.some.inj (hc.symm.trans hc')
    obtain ⟨-, salt, t, auths', hmem, hauth, hopen⟩ := hinv.revealed config p choice hc hch
    obtain ⟨t', auths'', hcom, hauth', hbefore⟩ := hinv.committed config p _ hc hopen
    refine ⟨t₀, d, config₀, rfl, hc₀, (ArenaConfig.round_eq_of_roundCount (hcount hs)).symm, hdl,
      salt, ⟨t, auths', hmem, hauth⟩, ⟨t', auths'', hcom, hauth', hbefore⟩, ?_⟩
    intro hbind choice' salt' heq
    exact hbind choice' salt' choice salt heq

/-- The stand-in for SHA-256 in the reference environment keeps the choices apart. -/
theorem reference_binding (flaky : Bool) : Binding (reference flaky) := by
  have hne : ∀ salt salt', computeCommitment (reference flaky) .Heads salt ≠
      computeCommitment (reference flaky) .Tails salt' := by
    intro salt salt'
    change sha256OfZeroSalt (preimage .Heads salt) ≠ sha256OfZeroSalt (preimage .Tails salt')
    have hheads : (preimage .Heads salt).head? = some (Choice.toByte .Heads) := rfl
    have htails : (preimage .Tails salt').head? ≠ some (Choice.toByte .Heads) := by
      change some (Choice.toByte .Tails) ≠ some (Choice.toByte .Heads)
      decide
    unfold sha256OfZeroSalt
    rw [if_pos hheads, if_neg htails]
    split_ifs
    · decide
    · decide
  intro choice salt choice' salt' heq
  cases choice with
  | Heads => cases choice' with
    | Heads => rfl
    | Tails => exact absurd heq (hne salt salt')
  | Tails => cases choice' with
    | Heads => exact absurd heq.symm (hne salt' salt)
    | Tails => rfl

/-- In the sample game player 11's choice is tallied. -/
theorem tallied_choice_opens_last_commitment_game : ∃ tr w config salt t auths,
    Run (Step (reference false)) (World.fresh VaultState.sample 0) tr w ∧
      .Heads ∈ activeChoices w.storage config.round ∧ Tallied w config ⟨11⟩ .Heads ∧
      lastCommitment ⟨11⟩ (sinceStart tr) =
        some (t, auths, computeCommitment (reference false) .Heads salt) ∧
      t.now < config.commitDeadline ∧
      ∀ salt', computeCommitment (reference false) .Tails salt' ≠
        computeCommitment (reference false) .Heads salt := by
  obtain ⟨tr, w, w', hrun, hstep, config, hc, hmem, hact, hch⟩ : ∃ tr w w',
      Run (Step (reference false)) (World.fresh VaultState.sample 0) tr w ∧
        Step (reference false) w (.call [⟨10⟩] .resolveRound) w' ∧
        ∃ config ∈ w.storage.config, ⟨11⟩ ∈ w.storage.loadAllPlayers ∧
          (w.storage.playerState ⟨11⟩).active = true ∧
          w.storage.choice (⟨11⟩, config.round) = some .Heads :=
    exists_run_call (sampleGame 100) [⟨10⟩] .resolveRound (by decide +kernel)
  have htallied : Tallied w config ⟨11⟩ .Heads := ⟨hc, hmem, hact, hch⟩
  obtain ⟨hcounted, hopens⟩ := (tallied_choice_opens_last_commitment hrun).2 _ _ _ hstep hc
  obtain ⟨-, -, -, -, -, -, -, salt, -, ⟨t, auths, hlast, -, hbefore⟩, hbind⟩ :=
    hopens _ _ htallied
  refine ⟨tr, w, config, salt, t, auths, hrun, (hcounted _).mpr ⟨_, htallied⟩, htallied, hlast,
    hbefore, fun salt' heq => ?_⟩
  cases hbind (reference_binding false) .Tails salt' heq

end Runs

end InverseArena.Arena
