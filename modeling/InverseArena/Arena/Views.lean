import InverseArena.Arena.Storage

/-!
# Views of the arena

`get_players` (with `load_player_page` of storage.rs) and `get_total_yield` of
`contract/arena/src/lib.rs` (lines 493-502 and 935-948).
-/

namespace InverseArena.Arena

open MachineInt

/-- `PAGE_SIZE`. -/
def pageSize : ℕ := 50

/-- `load_player_page(start, count)`. -/
def ArenaStorage.loadPlayerPage (s : ArenaStorage) (start count : ℕ) : List Address :=
  let all := s.loadAllPlayers
  let total := all.length
  if start ≥ total then []
  else
    let stop := min (satAddU32 start count) total
    (List.range' start (stop - start)).filterMap fun i => all[i]?

/-- `get_players(page)`. -/
def getPlayers (s : ArenaStorage) (page : ℕ) : List (Address × PlayerState) :=
  let start := satMulU32 page pageSize
  (s.loadPlayerPage start pageSize).map fun addr => (addr, s.playerState addr)

/-- `get_total_yield()`. -/
def getTotalYield (s : ArenaStorage) : ℤ :=
  match s.loadConfig with
  | .ok config => config.cumulativeYield
  | .error _ => 0

theorem getTotalYield_eq {s : ArenaStorage} {config : ArenaConfig} (hc : s.config = some config) :
    getTotalYield s = config.cumulativeYield := by
  unfold getTotalYield ArenaStorage.loadConfig
  rw [hc]
  rfl

end InverseArena.Arena
