import InverseArena.Arena.Contract
import InverseArena.Library.Independence

/-!
# The moves of different players

`submit_commitment` and `reveal_choice` (`contract/arena/src/lib.rs`, lines 324-399)
read what is stored for their player and for the whole arena, and write an entry of
their player. So a ledger may include the moves of different players in any order.

Results:
* `independent_attempt`: moves of different players do not influence each other.
* `moves_independent`: two moves, and all moves of a round up to `resolve_round`.
-/

namespace InverseArena.Arena

open Host MachineInt Independence

variable {H : Type}

/-! ## Moves -/

/-- What a player does in a round. -/
inductive PlayerMove where
  | submitCommitment (commitment : BytesN 32)
  | revealChoice (choice : Choice) (salt : BytesN 32)
  deriving DecidableEq, Repr

/-- A call of a player. -/
structure PlayerCall where
  auths : List Address
  player : Address
  move : PlayerMove
  deriving DecidableEq, Repr

namespace PlayerCall

/-- The entry point that is called. -/
def call (c : PlayerCall) : Call :=
  match c.move with
  | .submitCommitment commitment => .submitCommitment c.player commitment
  | .revealChoice choice salt => .revealChoice c.player choice salt

/-- What a call checks, with the configuration that it has read. -/
def check (env : Env H) (c : PlayerCall) (w : World H) : Result ArenaError ArenaConfig :=
  match c.move with
  | .submitCommitment _ => do
    requireAuth c.auths c.player
    let config ← w.storage.loadConfig
    requireNotPaused config
    Host.check (config.state = .Active) .RoundNotActive
    Host.check (¬ w.now ≥ config.commitDeadline) .CommitPhaseEnded
    let playerState ← okOr (w.storage.loadPlayer c.player) .NotAPlayer
    Host.check (playerState.active = true) .PlayerEliminated
    pure config
  | .revealChoice choice salt => do
    requireAuth c.auths c.player
    let config ← w.storage.loadConfig
    requireNotPaused config
    let playerState ← okOr (w.storage.loadPlayer c.player) .NotAPlayer
    Host.check (playerState.active = true) .PlayerEliminated
    let round := satAddU32 config.roundCount 1
    Host.check ((w.storage.loadChoice c.player round).isSome = false) .ChoiceAlreadyRevealed
    Host.check (¬ w.now < config.commitDeadline) .RoundNotActive
    let commitment ← okOr (w.storage.loadCommitment c.player round) .MissingCommitment
    Host.check (commitment = computeCommitment env choice salt) .InvalidReveal
    pure config

/-- What a call that passes its checks writes. -/
def record (c : PlayerCall) (config : ArenaConfig) (w : World H) : World H :=
  let round := satAddU32 config.roundCount 1
  match c.move with
  | .submitCommitment commitment =>
    { w with storage := w.storage.saveCommitment c.player round commitment }.publish
      (.commitmentSubmitted c.player round)
  | .revealChoice choice _ =>
    { w with storage := w.storage.saveChoice c.player round choice }.publish
      (.choiceRevealed c.player choice round)

end PlayerCall

/-- Executes a call of a player. If it fails, the host takes back what it has done. -/
def attempt (env : Env H) (c : PlayerCall) (w : World H) : Result ArenaError Unit × World H :=
  match exec env c.auths c.call w with
  | .ok w' => (.ok (), w')
  | .error e => (.error e, w)

/-- The world without what has been published in it. -/
def World.unpublished (w : World H) : World H := { w with events := [] }

section Attempts

variable {env : Env H} {w w' : World H} {a b c : PlayerCall} {config config' : ArenaConfig}

/-- A call first checks, and then writes. -/
theorem exec_call : exec env c.auths c.call w =
    (fun config => c.record config w) <$> c.check env w := by
  unfold PlayerCall.call PlayerCall.check PlayerCall.record
  cases c.move with
  | submitCommitment commitment =>
    simp only [exec, submitCommitment, map_bind, map_pure]
  | revealChoice choice salt =>
    simp only [exec, revealChoice, map_bind, map_pure]

theorem attempt_eq : attempt env c w =
    match c.check env w with
    | .ok config => (.ok (), c.record config w)
    | .error e => (.error e, w) := by
  unfold attempt
  rw [exec_call]
  cases c.check env w with
  | ok config => rfl
  | error e => rfl

/-- The worlds look the same to player `p`. -/
structure LooksSame (p : Address) (w w' : World H) : Prop where
  now : w'.now = w.now
  config : w'.storage.config = w.storage.config
  player : w'.storage.player p = w.storage.player p
  choice : ∀ n, w'.storage.choice (p, n) = w.storage.choice (p, n)
  commitment : ∀ n, w'.storage.commitment (p, n) = w.storage.commitment (p, n)

theorem check_congr (h : LooksSame c.player w w') : c.check env w' = c.check env w := by
  unfold PlayerCall.check ArenaStorage.loadConfig ArenaStorage.loadPlayer ArenaStorage.loadChoice
    ArenaStorage.loadCommitment
  simp only [h.now, h.config, h.player, h.choice, h.commitment]

theorem looksSame_record (hne : a.player ≠ b.player) :
    LooksSame b.player w (a.record config w) := by
  have hkey : ∀ n m : ℕ, (b.player, n) ≠ (a.player, m) :=
    fun _ _ h => hne (Prod.ext_iff.mp h).1.symm
  unfold PlayerCall.record
  cases a.move with
  | submitCommitment commitment =>
    exact ⟨rfl, rfl, rfl, fun _ => rfl, fun n => Function.update_of_ne (hkey n _) _ _⟩
  | revealChoice choice salt =>
    exact ⟨rfl, rfl, rfl, fun n => Function.update_of_ne (hkey n _) _ _, fun _ => rfl⟩

/-- A move does not notice what another player does. -/
theorem check_attempt (hne : a.player ≠ b.player) :
    b.check env (attempt env a w).2 = b.check env w := by
  rw [attempt_eq]
  cases a.check env w with
  | ok config => exact check_congr (looksSame_record hne)
  | error e => rfl

/-- Two players write different entries. -/
theorem record_comm (hne : a.player ≠ b.player) :
    (b.record config' (a.record config w)).unpublished =
      (a.record config (b.record config' w)).unpublished := by
  have hkey : ∀ n m : ℕ, (a.player, n) ≠ (b.player, m) :=
    fun _ _ h => hne (Prod.ext_iff.mp h).1
  unfold PlayerCall.record World.unpublished World.publish ArenaStorage.saveCommitment
    ArenaStorage.saveChoice
  cases a.move with
  | submitCommitment commitment =>
    cases b.move with
    | submitCommitment commitment' =>
      dsimp only
      rw [Function.update_comm (hkey _ _)]
    | revealChoice choice salt => rfl
  | revealChoice choice salt =>
    cases b.move with
    | submitCommitment commitment => rfl
    | revealChoice choice' salt' =>
      dsimp only
      rw [Function.update_comm (hkey _ _)]

theorem looksSame_of_unpublished (h : w.unpublished = w'.unpublished) (p : Address) :
    LooksSame p w w' := by
  obtain ⟨s, outside, now, events, transfers⟩ := w
  obtain ⟨s', outside', now', events', transfers'⟩ := w'
  cases h
  exact ⟨rfl, rfl, rfl, fun _ => rfl, fun _ => rfl⟩

theorem record_unpublished (h : w.unpublished = w'.unpublished) :
    (c.record config w).unpublished = (c.record config w').unpublished := by
  obtain ⟨s, outside, now, events, transfers⟩ := w
  obtain ⟨s', outside', now', events', transfers'⟩ := w'
  cases h
  unfold PlayerCall.record
  cases c.move with
  | submitCommitment commitment => rfl
  | revealChoice choice salt => rfl

/-- Moves of different players do not influence each other, except for the order of the
    events. -/
theorem independent_attempt (env : Env H) :
    Independent (attempt env) PlayerCall.player World.unpublished where
  congr c w w' h := by
    rw [attempt_eq, attempt_eq, check_congr (looksSame_of_unpublished h c.player)]
    cases c.check env w with
    | ok config => exact ⟨rfl, record_unpublished h⟩
    | error e => exact ⟨rfl, h⟩
  result a b w hne := by
    rw [attempt_eq, attempt_eq (c := b), check_attempt hne]
    cases b.check env w with
    | ok config => rfl
    | error e => rfl
  comm a b w hne := by
    rw [attempt_eq (c := b), check_attempt hne, attempt_eq (c := a) (w := (attempt env b w).2),
      check_attempt hne.symm, attempt_eq, attempt_eq]
    cases a.check env w with
    | ok config =>
      cases b.check env w with
      | ok config' => exact record_comm hne
      | error e => rfl
    | error e =>
      cases b.check env w with
      | ok config' => rfl
      | error e' => rfl

end Attempts

/-! ## The end of the round -/

section Resolutions

variable {env : Env H} {config : ArenaConfig} {round : ℕ} {s : ArenaStorage} {outside : H}
  {now : ℕ} {events events' : List ArenaEvent} {transfers : List Transfer}

/-- Whatever was published before, players are resolved in the same way. -/
theorem foldl_resolvePlayer_events {tally : Tally} (l : List Address) (r : Resolving)
    (published : List ArenaEvent) : ∃ events,
      l.foldl (resolvePlayer tally round) { r with events := published } =
        { l.foldl (resolvePlayer tally round) r with events := events } := by
  induction l generalizing r published with
  | nil => exact ⟨published, rfl⟩
  | cons p l ih =>
    obtain ⟨events, hstep⟩ : ∃ events,
        resolvePlayer tally round { r with events := published } p =
          { resolvePlayer tally round r p with events := events } := by
      unfold resolvePlayer
      dsimp only
      split_ifs
      · exact ⟨_, rfl⟩
      · exact ⟨_, rfl⟩
      · exact ⟨_, rfl⟩
    rw [List.foldl_cons, List.foldl_cons, hstep]
    exact ih _ _

theorem resolvePlayers_events :
    (resolvePlayers s events' round).1 = (resolvePlayers s events round).1 ∧
      (resolvePlayers s events' round).2.storage = (resolvePlayers s events round).2.storage := by
  obtain ⟨published, heq⟩ := @foldl_resolvePlayer_events round (roundTally s round)
    s.loadAllPlayers ⟨s, events, 0, 0, none⟩ events'
  unfold resolvePlayers
  dsimp only at heq ⊢
  rw [heq]
  split_ifs
  · exact ⟨rfl, rfl⟩
  · exact ⟨rfl, rfl⟩

/-- What is recorded about the yield does not depend on what was published. -/
theorem snapshotYield_events : ∃ snapshot t outside' published published',
    snapshotYield env config round ⟨s, outside, now, events, transfers⟩ =
        (snapshot, ⟨t, outside', now, published, transfers⟩) ∧
      snapshotYield env config round ⟨s, outside, now, events', transfers⟩ =
        (snapshot, ⟨t, outside', now, published', transfers⟩) := by
  unfold snapshotYield fetchYieldBps accruedYield
  dsimp only
  cases env.getCurrentYieldBps now config.oracleContract outside with
  | none =>
    dsimp only [World.publish]
    by_cases hle : (vaultBalanceOr env now config.yieldVault s.loadLastVaultBalance outside).1 ≥
        s.loadLastVaultBalance
    · simp only [hle, if_true]
      exact ⟨_, _, _, _, _, rfl, rfl⟩
    · simp only [hle, if_false]
      exact ⟨_, _, _, _, _, rfl, rfl⟩
  | some r =>
    dsimp only [World.publish]
    by_cases hle : (vaultBalanceOr env now config.yieldVault s.loadLastVaultBalance r.2).1 ≥
        s.loadLastVaultBalance
    · simp only [hle, if_true]
      exact ⟨_, _, _, _, _, rfl, rfl⟩
    · simp only [hle, if_false]
      exact ⟨_, _, _, _, _, rfl, rfl⟩

theorem settlePlayers_unpublished {snapshot : YieldSnapshot} :
    (settlePlayers config round snapshot ⟨s, outside, now, events', transfers⟩).unpublished =
      (settlePlayers config round snapshot ⟨s, outside, now, events, transfers⟩).unpublished := by
  obtain ⟨hresolution, hstorage⟩ := @resolvePlayers_events round s events events'
  unfold settlePlayers concludeRound World.unpublished
  dsimp only
  rw [hresolution, hstorage]

theorem settleRound_unpublished :
    (settleRound env config ⟨s, outside, now, events', transfers⟩).unpublished =
      (settleRound env config ⟨s, outside, now, events, transfers⟩).unpublished := by
  obtain ⟨snapshot, t, outside', published, published', heq, heq'⟩ :=
    @snapshotYield_events H env config (satAddU32 config.roundCount 1) s outside now events events'
      transfers
  unfold settleRound
  dsimp only
  rw [heq, heq']
  exact settlePlayers_unpublished

/-- `resolve_round` does not depend on what was published. -/
theorem resolveRound_unpublished {auths : List Address} {w w' : World H}
    (h : w.unpublished = w'.unpublished) :
    World.unpublished <$> exec env auths .resolveRound w =
      World.unpublished <$> exec env auths .resolveRound w' := by
  obtain ⟨s, outside, now, events, transfers⟩ := w
  obtain ⟨s', outside', now', events', transfers'⟩ := w'
  cases h
  simp only [exec, resolveRound, map_bind, map_pure]
  refine bind_congr fun s => bind_congr fun config => bind_congr fun _ => bind_congr fun _ => ?_
  refine bind_congr fun _ => bind_congr fun roundStart => bind_congr fun _ => ?_
  exact congrArg pure settleRound_unpublished

end Resolutions

/-! ## Whole rounds -/

/-- The calls of players that a ledger includes. -/
structure Included where
  time : ℕ
  calls : List PlayerCall

/-- Executes the calls of several ledgers, and lists them with their results. -/
def playLedgers (env : Env H) :
    List Included → World H → List (List (PlayerCall × Result ArenaError Unit)) × World H
  | [], w => ([], w)
  | l :: ledgers, w =>
    let played := performAll (attempt env) l.calls { w with now := l.time }
    let rest := playLedgers env ledgers played.2
    (played.1 :: rest.1, rest.2)

/-- A ledger includes the same calls at the same time, those of each player in the same
    order. -/
def Included.Reordered (l l' : Included) : Prop :=
  l.time = l'.time ∧ Independence.Reordered PlayerCall.player l.calls l'.calls

theorem unpublished_now {w w' : World H} (h : w.unpublished = w'.unpublished) (time : ℕ) :
    World.unpublished { w with now := time } = World.unpublished { w' with now := time } := by
  obtain ⟨s, outside, now, events, transfers⟩ := w
  obtain ⟨s', outside', now', events', transfers'⟩ := w'
  cases h
  rfl

theorem playLedgers_reordered {env : Env H} {ledgers ledgers' : List Included}
    (h : List.Forall₂ Included.Reordered ledgers ledgers') {w w' : World H}
    (hw : w.unpublished = w'.unpublished) :
    List.Forall₂ (Reordered fun e => e.1.player) (playLedgers env ledgers w).1
        (playLedgers env ledgers' w').1 ∧
      (playLedgers env ledgers w).2.unpublished = (playLedgers env ledgers' w').2.unpublished := by
  induction h generalizing w w' with
  | nil => exact ⟨.nil, hw⟩
  | @cons l l' ledgers ledgers' hl _ ih =>
    have hind := independent_attempt env
    obtain ⟨hsame, hview⟩ := hind.performAll_congr l.calls (unpublished_now hw l.time)
    obtain ⟨hresults, hend⟩ := hind.reordered hl.2 { w' with now := l.time }
    obtain ⟨hrest, hlast⟩ := ih (hview.trans hend)
    rw [← hsame] at hresults
    unfold playLedgers
    rw [← hl.1]
    exact ⟨.cons hresults hrest, hlast⟩

/-- In every state, two moves of different players have the same results in either order,
    and lead to the same state. So the ledgers of a round may include the moves of
    different players in any order: every move has the same result, and `resolve_round`
    the same outcome. -/
theorem moves_independent (env : Env H) (w : World H) :
    (∀ a b : PlayerCall, a.player ≠ b.player →
      (attempt env b (attempt env a w).2).1 = (attempt env b w).1 ∧
      (attempt env a (attempt env b w).2).1 = (attempt env a w).1 ∧
      (attempt env b (attempt env a w).2).2.unpublished =
        (attempt env a (attempt env b w).2).2.unpublished) ∧
    ∀ ledgers ledgers', List.Forall₂ Included.Reordered ledgers ledgers' →
      List.Forall₂ (Reordered fun e => e.1.player) (playLedgers env ledgers w).1
        (playLedgers env ledgers' w).1 ∧
      (playLedgers env ledgers w).2.unpublished = (playLedgers env ledgers' w).2.unpublished ∧
      ∀ auths time,
        World.unpublished <$>
            exec env auths .resolveRound { (playLedgers env ledgers w).2 with now := time } =
          World.unpublished <$>
            exec env auths .resolveRound { (playLedgers env ledgers' w).2 with now := time } := by
  have hind := independent_attempt env
  refine ⟨fun a b hne => ?_, fun ledgers ledgers' hl => ?_⟩
  · exact ⟨hind.result a b w hne, hind.result b a w hne.symm, hind.comm a b w hne⟩
  · obtain ⟨hresults, hend⟩ := playLedgers_reordered hl (Eq.refl w.unpublished)
    exact ⟨hresults, hend, fun auths time =>
      resolveRound_unpublished (unpublished_now hend time)⟩

end InverseArena.Arena
