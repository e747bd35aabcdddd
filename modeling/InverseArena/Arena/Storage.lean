import InverseArena.Arena.Types
import InverseArena.Library.KeyedMap
import InverseArena.Library.MachineInt

/-!
# The arena's storage

`contract/arena/src/storage.rs`: one field per storage key, `none` where the
key is absent, and the functions of `ArenaStorage` over it. Entry expiry (the
TTL extensions before each access) is not modelled.

Results:
* `clearRoundData_eq`: what clearing a round leaves behind.
-/

namespace InverseArena.Arena

open Host MachineInt

/-- `MIN_PLAYERS_TO_START`. -/
def minPlayersToStart : ℕ := 2

/-- The entries of the contract's storage, by key. -/
structure ArenaStorage where
  config : Option ArenaConfig
  players : Option (List Address)
  player : Address → Option PlayerState
  bannedPlayer : Address → Option Bool
  /-- `CommitmentForRound(player, round)`. -/
  commitment : Address × ℕ → Option (BytesN 32)
  /-- `ChoiceForRound(player, round)`. -/
  choice : Address × ℕ → Option Choice
  yieldSnapshot : ℕ → Option YieldSnapshot
  roundResult : ℕ → Option RoundResult
  roundYieldBps : ℕ → Option ℕ
  roundStart : Option ℕ
  roundDuration : Option ℕ
  lastVaultBalance : Option ℤ
  prizeClaimed : Option Bool
  minPlayers : Option ℕ
  maxPlayers : Option ℕ
  reentrancyGuard : Option Bool
  creatorActivePools : Address → Option ℕ
  winner : Option Address
  refundClaimed : Address → Option Bool
  leaderboard : Option (List LeaderboardEntry)
  leaderboardLimit : Option ℕ
  pendingAdmin : Option PendingAdmin
  pendingUpgrade : Option PendingUpgrade

namespace ArenaStorage

/-- The storage of a freshly deployed arena. -/
def fresh : ArenaStorage where
  config := none
  players := none
  player := fun _ => none
  bannedPlayer := fun _ => none
  commitment := fun _ => none
  choice := fun _ => none
  yieldSnapshot := fun _ => none
  roundResult := fun _ => none
  roundYieldBps := fun _ => none
  roundStart := none
  roundDuration := none
  lastVaultBalance := none
  prizeClaimed := none
  minPlayers := none
  maxPlayers := none
  reentrancyGuard := none
  creatorActivePools := fun _ => none
  winner := none
  refundClaimed := fun _ => none
  leaderboard := none
  leaderboardLimit := none
  pendingAdmin := none
  pendingUpgrade := none

variable (s : ArenaStorage)

/-! ## Configuration and players -/

def loadConfig : Result ArenaError ArenaConfig := okOr s.config .NotInitialized

def saveConfig (config : ArenaConfig) : ArenaStorage := { s with config := some config }

def hasConfig : Bool := s.config.isSome

def loadAllPlayers : List Address := s.players.getD []

def savePlayers (players : List Address) : ArenaStorage := { s with players := some players }

def loadPlayer (player : Address) : Option PlayerState := s.player player

/-- `load_player(player).map(|s| s.active).unwrap_or(false)`. -/
def isActive (player : Address) : Bool := ((s.loadPlayer player).map (·.active)).getD false

/-- `load_player(player).unwrap_or_default()`. -/
def playerState (player : Address) : PlayerState := (s.loadPlayer player).getD {}

def savePlayer (player : Address) (state : PlayerState) : ArenaStorage :=
  { s with player := Function.update s.player player (some state) }

/-- `add_player`: appends to the list, stores a fresh player state and keeps
    the cached count in step. -/
def addPlayer (player : Address) : ArenaStorage :=
  let players := s.loadAllPlayers ++ [player]
  let s := s.savePlayers players
  let s := s.savePlayer player { active := true, roundsSurvived := 0 }
  match s.config with
  | some config => s.saveConfig { config with playerCount := players.length }
  | none => s

def setPlayerBanned (player : Address) (banned : Bool) : ArenaStorage :=
  { s with bannedPlayer := Function.update s.bannedPlayer player (some banned) }

def isPlayerBanned (player : Address) : Bool := (s.bannedPlayer player).getD false

def savePlayerLimits (minPlayers maxPlayers : ℕ) : ArenaStorage :=
  { s with minPlayers := some minPlayers, maxPlayers := some maxPlayers }

def loadMinPlayers : ℕ := s.minPlayers.getD minPlayersToStart

def loadMaxPlayers : Option ℕ := s.maxPlayers

/-! ## Rounds -/

def saveCommitment (player : Address) (round : ℕ) (commitment : BytesN 32) : ArenaStorage :=
  { s with commitment := Function.update s.commitment (player, round) (some commitment) }

def loadCommitment (player : Address) (round : ℕ) : Option (BytesN 32) :=
  s.commitment (player, round)

def saveChoice (player : Address) (round : ℕ) (choice : Choice) : ArenaStorage :=
  { s with choice := Function.update s.choice (player, round) (some choice) }

def loadChoice (player : Address) (round : ℕ) : Option Choice := s.choice (player, round)

def removePlayerChoice (player : Address) (round : ℕ) : ArenaStorage :=
  { s with choice := Function.update s.choice (player, round) none }

def saveRoundStart (timestamp : ℕ) : ArenaStorage := { s with roundStart := some timestamp }

def loadRoundStart : Option ℕ := s.roundStart

def saveRoundDuration (durationSeconds : ℕ) : ArenaStorage :=
  { s with roundDuration := some durationSeconds }

def loadRoundDuration : ℕ := s.roundDuration.getD 0

def saveRoundYieldBps (round yieldBps : ℕ) : ArenaStorage :=
  { s with roundYieldBps := Function.update s.roundYieldBps round (some yieldBps) }

def saveYieldSnapshot (round : ℕ) (snapshot : YieldSnapshot) : ArenaStorage :=
  { s with yieldSnapshot := Function.update s.yieldSnapshot round (some snapshot) }

def saveRoundResult (round : ℕ) (result : RoundResult) : ArenaStorage :=
  { s with roundResult := Function.update s.roundResult round (some result) }

def saveLastVaultBalance (balance : ℤ) : ArenaStorage :=
  { s with lastVaultBalance := some balance }

def loadLastVaultBalance : ℤ := s.lastVaultBalance.getD 0

/-- The loop body of `clear_round_data`. -/
def clearPlayerRound (round : ℕ) (player : Address) : ArenaStorage :=
  { s with
    choice := Function.update s.choice (player, round) none
    commitment := Function.update s.commitment (player, round) none }

/-- `clear_round_data`. -/
def clearRoundData (round : ℕ) : ArenaStorage :=
  s.loadAllPlayers.foldl (fun s player => s.clearPlayerRound round player) s

/-! ## Payouts -/

def isPrizeClaimed : Bool := s.prizeClaimed.getD false

def markPrizeClaimed : ArenaStorage := { s with prizeClaimed := some true }

def getWinner : Option Address := s.winner

def setWinner (winner : Address) : ArenaStorage := { s with winner := some winner }

def isRefundClaimed (player : Address) : Bool := (s.refundClaimed player).getD false

def setRefundClaimed (player : Address) : ArenaStorage :=
  { s with refundClaimed := Function.update s.refundClaimed player (some true) }

def loadLeaderboard : List LeaderboardEntry := s.leaderboard.getD []

def saveLeaderboard (leaderboard : List LeaderboardEntry) : ArenaStorage :=
  { s with leaderboard := some leaderboard }

def loadLeaderboardLimit : ℕ := s.leaderboardLimit.getD 100

def saveLeaderboardLimit (limit : ℕ) : ArenaStorage := { s with leaderboardLimit := some limit }

/-! ## Guard, pool counter, pending proposals -/

def reentrancyGuardEntered : Bool := s.reentrancyGuard.getD false

def enterReentrancyGuard : Result ArenaError ArenaStorage := do
  check (s.reentrancyGuardEntered = false) .ReentrantCall
  pure { s with reentrancyGuard := some true }

def exitReentrancyGuard : ArenaStorage := { s with reentrancyGuard := none }

def loadCreatorActivePools (creator : Address) : ℕ := (s.creatorActivePools creator).getD 0

def saveCreatorActivePools (creator : Address) (activePools : ℕ) : ArenaStorage :=
  { s with creatorActivePools := Function.update s.creatorActivePools creator (some activePools) }

def incrementCreatorActivePools (creator : Address) : ArenaStorage :=
  s.saveCreatorActivePools creator (satAddU32 (s.loadCreatorActivePools creator) 1)

def decrementCreatorActivePools (creator : Address) : ArenaStorage :=
  let activePools := s.loadCreatorActivePools creator
  if activePools > 0 then s.saveCreatorActivePools creator (activePools - 1) else s

/-- The counters after `decrement_creator_active_pools`. -/
def poolsDecremented (creator : Address) : Address → Option ℕ :=
  if s.loadCreatorActivePools creator > 0 then
    Function.update s.creatorActivePools creator (some (s.loadCreatorActivePools creator - 1))
  else s.creatorActivePools

def savePendingAdmin (pending : PendingAdmin) : ArenaStorage :=
  { s with pendingAdmin := some pending }

def loadPendingAdmin : Option PendingAdmin := s.pendingAdmin

def deletePendingAdmin : ArenaStorage := { s with pendingAdmin := none }

def savePendingUpgrade (upgrade : PendingUpgrade) : ArenaStorage :=
  { s with pendingUpgrade := some upgrade }

def loadPendingUpgrade : Option PendingUpgrade := s.pendingUpgrade

def clearPendingUpgrade : ArenaStorage := { s with pendingUpgrade := none }

/-! ## What the loops leave behind -/

variable {s}

theorem enterReentrancyGuard_eq_ok {s' : ArenaStorage} : s.enterReentrancyGuard = .ok s' ↔
    s.reentrancyGuardEntered = false ∧ { s with reentrancyGuard := some true } = s' := by
  simp only [enterReentrancyGuard, Fallible.bind_eq_ok, check_eq_ok, Fallible.pure_eq_ok,
    exists_const]

theorem isActive_eq (player : Address) : s.isActive player = (s.playerState player).active := by
  unfold isActive playerState
  cases s.loadPlayer player with
  | none => rfl
  | some state => rfl

theorem addPlayer_eq {config : ArenaConfig} (h : s.config = some config) (player : Address) :
    s.addPlayer player = { s with
      config := some { config with playerCount := (s.loadAllPlayers ++ [player]).length }
      players := some (s.loadAllPlayers ++ [player])
      player := Function.update s.player player (some ⟨true, 0⟩) } := by
  unfold addPlayer savePlayers savePlayer
  dsimp only
  rw [h]
  rfl

theorem decrementCreatorActivePools_eq (creator : Address) :
    s.decrementCreatorActivePools creator =
      { s with creatorActivePools := s.poolsDecremented creator } := by
  unfold decrementCreatorActivePools poolsDecremented
  dsimp only
  split_ifs
  · rfl
  · rfl

/-- Clearing a round only touches the two keyed maps. -/
theorem clearRoundData_eq (round : ℕ) :
    s.clearRoundData round = { s with
      choice := fun k => if k.2 = round ∧ k.1 ∈ s.loadAllPlayers then none else s.choice k
      commitment := fun k =>
        if k.2 = round ∧ k.1 ∈ s.loadAllPlayers then none else s.commitment k } := by
  have hgen : ∀ (l : List Address) (s : ArenaStorage),
      l.foldl (fun s player => s.clearPlayerRound round player) s = { s with
        choice := fun k => if k.2 = round ∧ k.1 ∈ l then none else s.choice k
        commitment := fun k => if k.2 = round ∧ k.1 ∈ l then none else s.commitment k } := by
    intro l
    induction l with
    | nil => intro s; simp
    | cons a l ih =>
      intro s
      rw [List.foldl_cons, ih]
      unfold clearPlayerRound
      congr 1
      · exact KeyedMap.erase_update _ a round l
      · exact KeyedMap.erase_update _ a round l
  exact hgen s.loadAllPlayers s

end ArenaStorage

end InverseArena.Arena
