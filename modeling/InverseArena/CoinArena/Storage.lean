import InverseArena.CoinArena.Types
import InverseArena.Library.KeyedMap
import InverseArena.Library.MachineInt

/-!
# The coin arena's storage

`contracts/arena/src/storage.rs`: one field per storage key, `none` where the
key is absent, and the functions of `ArenaStorage` over it. The source calls
four functions that it does not contain (the platform fee and the bounds on the
length of a round); the entries they use are the field `globals`, of any type
`G`. Entry expiry is not modelled.

Results:
* `clearChoices_eq`, `cleanupArenaData_eq`: what the two loops over the players
  leave behind.
-/

namespace InverseArena.CoinArena

open Host KeyedMap MachineInt

variable {G : Type}

/-- The entries of the contract's storage, by key. -/
structure ArenaStorage (G : Type) where
  config : Option ArenaConfig
  players : Option (List Address)
  /-- The entry under the player's own address. -/
  active : Address → Option Bool
  choice : Address → Option Choice
  round : Option ℕ
  winner : Option Address
  prizeClaimed : Option Bool
  creatorStake : Option ℤ
  refundClaimed : Address → Option Bool
  globalStats : Option GlobalStats
  rwaCounter : Option ℕ
  rwaYield : ℕ → Option RwaYieldRecord
  prizePool : Option ℤ
  pendingAdmin : Option Address
  /-- `("CMT", player, round)`. -/
  commitHash : Address × ℕ → Option (BytesN 32)
  /-- `("RVLD", player, round)`. -/
  revealed : Address × ℕ → Option Bool
  roundDeadline : Option ℕ
  profile : Address → Option PlayerProfile
  globals : G

namespace ArenaStorage

/-- The storage of a freshly deployed arena. -/
def fresh (globals : G) : ArenaStorage G where
  config := none
  players := none
  active := fun _ => none
  choice := fun _ => none
  round := none
  winner := none
  prizeClaimed := none
  creatorStake := none
  refundClaimed := fun _ => none
  globalStats := none
  rwaCounter := none
  rwaYield := fun _ => none
  prizePool := none
  pendingAdmin := none
  commitHash := fun _ => none
  revealed := fun _ => none
  roundDeadline := none
  profile := fun _ => none
  globals := globals

variable (s : ArenaStorage G)

/-! ## Configuration and players -/

def saveConfig (config : ArenaConfig) : ArenaStorage G := { s with config := some config }

def loadConfig : Result ArenaError ArenaConfig := okOr s.config .ConfigNotFound

def loadAllPlayers : List Address := s.players.getD []

/-- `add_player`: appends the player, also one already in the list, and sets
    it active. -/
def addPlayer (player : Address) : ArenaStorage G :=
  { s with
    players := some (s.loadAllPlayers ++ [player])
    active := Function.update s.active player (some true) }

def isPlayerActive (player : Address) : Bool := (s.active player).getD false

def setPlayerActive (player : Address) (active : Bool) : ArenaStorage G :=
  { s with active := Function.update s.active player (some active) }

def savePlayerChoice (player : Address) (choice : Choice) : ArenaStorage G :=
  { s with choice := Function.update s.choice player (some choice) }

def loadPlayerChoice (player : Address) : Option Choice := s.choice player

def removePlayerChoice (player : Address) : ArenaStorage G :=
  { s with choice := Function.update s.choice player none }

/-- `clear_choices`. -/
def clearChoices : ArenaStorage G := s.loadAllPlayers.foldl removePlayerChoice s

/-! ## Round, winner, stake and refunds -/

def getRound : ℕ := s.round.getD 0

def setRound (round : ℕ) : ArenaStorage G := { s with round := some round }

def getWinner : Option Address := s.winner

def setWinner (winner : Address) : ArenaStorage G := { s with winner := some winner }

def isPrizeClaimed : Bool := s.prizeClaimed.getD false

def setPrizeClaimed : ArenaStorage G := { s with prizeClaimed := some true }

def saveCreatorStake (amount : ℤ) : ArenaStorage G := { s with creatorStake := some amount }

def loadCreatorStake : ℤ := s.creatorStake.getD 0

def isRefundClaimed (player : Address) : Bool := (s.refundClaimed player).getD false

def setRefundClaimed (player : Address) : ArenaStorage G :=
  { s with refundClaimed := Function.update s.refundClaimed player (some true) }

/-- The body of the loop of `cleanup_arena_data`. -/
def removePlayerData (player : Address) : ArenaStorage G :=
  { s with
    choice := Function.update s.choice player none
    active := Function.update s.active player none
    refundClaimed := Function.update s.refundClaimed player none }

/-- `cleanup_arena_data`. -/
def cleanupArenaData : ArenaStorage G :=
  let s := s.loadAllPlayers.foldl removePlayerData s
  { s with
    players := none, winner := none, round := none, prizeClaimed := none, creatorStake := none }

/-! ## Statistics, pool and yield records -/

def loadGlobalStats : GlobalStats := s.globalStats.getD {}

def saveGlobalStats (stats : GlobalStats) : ArenaStorage G :=
  { s with globalStats := some stats }

def incrementArenaCount : ArenaStorage G :=
  let stats := s.loadGlobalStats
  s.saveGlobalStats { stats with totalArenas := satAddU32 stats.totalArenas 1 }

def incrementLiveSurvivors (delta : ℕ) : ArenaStorage G :=
  let stats := s.loadGlobalStats
  s.saveGlobalStats { stats with liveSurvivors := satAddU32 stats.liveSurvivors delta }

def decrementLiveSurvivors (delta : ℕ) : ArenaStorage G :=
  let stats := s.loadGlobalStats
  s.saveGlobalStats { stats with liveSurvivors := stats.liveSurvivors - delta }

def addToGlobalPool (amount : ℤ) : ArenaStorage G :=
  let stats := s.loadGlobalStats
  s.saveGlobalStats { stats with globalPoolTotal := satAddI128 stats.globalPoolTotal amount }

def getPrizePool : ℤ := s.prizePool.getD 0

def setPrizePool (amount : ℤ) : ArenaStorage G := { s with prizePool := some amount }

/-- `next_rwa_id`. -/
def nextRwaId : ℕ := satAddU64 (s.rwaCounter.getD 0) 1

/-- `create_rwa_yield`: the record under the next identifier. -/
def createRwaYield (record : RwaYieldRecord) : RwaYieldRecord × ArenaStorage G :=
  let record := { record with id := s.nextRwaId }
  (record, { s with
    rwaCounter := some record.id
    rwaYield := Function.update s.rwaYield record.id (some record) })

/-! ## Commitments, pending admin, deadline and profiles -/

def saveCommitHash (player : Address) (round : ℕ) (hash : BytesN 32) : ArenaStorage G :=
  { s with commitHash := Function.update s.commitHash (player, round) (some hash) }

def loadCommitHash (player : Address) (round : ℕ) : Option (BytesN 32) :=
  s.commitHash (player, round)

def isRevealed (player : Address) (round : ℕ) : Bool := (s.revealed (player, round)).getD false

def setRevealed (player : Address) (round : ℕ) : ArenaStorage G :=
  { s with revealed := Function.update s.revealed (player, round) (some true) }

def setPendingAdmin (admin : Address) : ArenaStorage G := { s with pendingAdmin := some admin }

def getPendingAdmin : Option Address := s.pendingAdmin

def clearPendingAdmin : ArenaStorage G := { s with pendingAdmin := none }

def setRoundDeadline (deadline : ℕ) : ArenaStorage G := { s with roundDeadline := some deadline }

def getRoundDeadline : Option ℕ := s.roundDeadline

def loadPlayerProfile (player : Address) : PlayerProfile := (s.profile player).getD {}

def savePlayerProfile (player : Address) (profile : PlayerProfile) : ArenaStorage G :=
  { s with profile := Function.update s.profile player (some profile) }

/-- The refunds paid once the one of `player` is. -/
theorem isRefundClaimed_update (player : Address) :
    isRefundClaimed { s with refundClaimed := Function.update s.refundClaimed player (some true) } =
      Function.update s.isRefundClaimed player true := by
  funext p
  exact Function.apply_update (fun _ o => Option.getD o false) s.refundClaimed player (some true) p

/-! ## The loops over the players -/

variable {s}

theorem foldl_removePlayerChoice (l : List Address) :
    l.foldl removePlayerChoice s = { s with choice := without s.choice l } := by
  induction l generalizing s with
  | nil => rw [List.foldl_nil, without_nil]
  | cons a l ih => rw [List.foldl_cons, ih]; simp only [removePlayerChoice, without_update]

theorem clearChoices_eq :
    s.clearChoices = { s with choice := without s.choice s.loadAllPlayers } :=
  foldl_removePlayerChoice _

theorem foldl_removePlayerData (l : List Address) :
    l.foldl removePlayerData s = { s with
      choice := without s.choice l
      active := without s.active l
      refundClaimed := without s.refundClaimed l } := by
  induction l generalizing s with
  | nil => rw [List.foldl_nil]; simp only [without_nil]
  | cons a l ih => rw [List.foldl_cons, ih]; simp only [removePlayerData, without_update]

theorem cleanupArenaData_eq : s.cleanupArenaData = { s with
    choice := without s.choice s.loadAllPlayers
    active := without s.active s.loadAllPlayers
    refundClaimed := without s.refundClaimed s.loadAllPlayers
    players := none, winner := none, round := none, prizeClaimed := none
    creatorStake := none } := by
  unfold cleanupArenaData
  rw [foldl_removePlayerData]

end ArenaStorage

end InverseArena.CoinArena
