import InverseArena.Arena.Membership
import InverseArena.Arena.Views
import InverseArena.Library.Pages

/-!
# The pages of `get_players`

`get_players` computes the start of a page with a saturating product, and
`load_player_page` its end with a saturating sum, clamped to the length of the list
(`contract/arena/src/lib.rs`, lines 493-502; `storage.rs`, lines 85-99).

Results:
* `loadPlayerPage_eq`: what is read is the slice of the list from `start` on.
* `getPlayers_exact`: the pages partition the list of the players.
* `pagesExact_of_run`: so in every reachable state each player is on one page, once.
-/

namespace InverseArena.Arena

open Host MachineInt Pages Transition

/-- An entry of a page. -/
def ArenaStorage.pageEntry (s : ArenaStorage) (p : Address) : Address × PlayerState :=
  (p, s.playerState p)

/-- The pages list the players with their states, in order, and each as often as it
    is in the list. -/
structure PagesExact (s : ArenaStorage) : Prop where
  entries : ∀ page ≤ u32Max, getPlayers s page =
    (s.loadAllPlayers.extract (50 * page) (min (50 * page + 50) s.loadAllPlayers.length)).map
      s.pageEntry
  outOfRange : ∀ page ≤ u32Max, s.loadAllPlayers.length ≤ 50 * page → getPlayers s page = []
  joined : ∀ pages ≤ u32Max, s.loadAllPlayers.length ≤ 50 * pages →
    (List.range pages).flatMap (getPlayers s) = s.loadAllPlayers.map s.pageEntry
  once : ∀ pages ≤ u32Max, s.loadAllPlayers.length ≤ 50 * pages → s.loadAllPlayers.Nodup →
    ∀ p ∈ s.loadAllPlayers, (((List.range pages).flatMap (getPlayers s)).map Prod.fst).count p = 1

variable {s : ArenaStorage}

theorem loadPlayerPage_eq {start count : ℕ} (hlen : s.loadAllPlayers.length ≤ u32Max) :
    s.loadPlayerPage start count = (s.loadAllPlayers.drop start).take count := by
  unfold ArenaStorage.loadPlayerPage satAddU32
  dsimp only
  split_ifs with h
  · rw [List.drop_eq_nil_of_le h, List.take_nil]
  · rw [filterMap_getElem?, List.take_eq_take_iff, List.length_drop]
    omega

/-- Where the product saturates the page is past the list. -/
theorem getPlayers_eq (hlen : s.loadAllPlayers.length ≤ u32Max) (k : ℕ) :
    getPlayers s k = (page pageSize s.loadAllPlayers k).map s.pageEntry := by
  unfold getPlayers satMulU32
  dsimp only
  rw [loadPlayerPage_eq hlen]
  by_cases hk : k * pageSize ≤ u32Max
  · rw [min_eq_left hk]
    rfl
  · have hpast : s.loadAllPlayers.drop (k * pageSize) = [] :=
      List.drop_eq_nil_of_le (hlen.trans (not_le.mp hk).le)
    unfold page
    rw [min_eq_right (not_le.mp hk).le, List.drop_eq_nil_of_le hlen, hpast, List.take_nil]
    rfl

theorem flatMap_getPlayers (hlen : s.loadAllPlayers.length ≤ u32Max) {pages : ℕ}
    (h : s.loadAllPlayers.length ≤ 50 * pages) :
    (List.range pages).flatMap (getPlayers s) = s.loadAllPlayers.map s.pageEntry := by
  have hpages : getPlayers s = fun k => (page pageSize s.loadAllPlayers k).map s.pageEntry :=
    funext (getPlayers_eq hlen)
  rw [hpages, ← List.map_flatMap, flatMap_page_eq (by rwa [Nat.mul_comm])]

/-- Every page of a list that fits in a `u32`. -/
theorem getPlayers_exact (hlen : s.loadAllPlayers.length ≤ u32Max) : PagesExact s where
  entries k _ := by
    rw [getPlayers_eq hlen, List.extract_eq_take_drop]
    congr 1
    show (s.loadAllPlayers.drop (k * 50)).take 50 = _
    rw [Nat.mul_comm k 50]
    rw [List.take_eq_take_iff, List.length_drop]
    omega
  outOfRange k _ hpast := by
    rw [getPlayers_eq hlen]
    unfold page
    rw [List.drop_eq_nil_of_le (by rwa [Nat.mul_comm])]
    rfl
  joined pages _ h := flatMap_getPlayers hlen h
  once pages _ h hnodup p hp := by
    rw [flatMap_getPlayers hlen h, List.map_map]
    have hfst : Prod.fst ∘ s.pageEntry = id := rfl
    rw [hfst, List.map_id]
    exact List.count_eq_one_of_mem hnodup hp

/-- 51 players are on two pages. -/
theorem getPlayers_exact_two : PagesExact { ArenaStorage.fresh with
    players := some ((List.range 51).map Address.mk) } :=
  getPlayers_exact (by decide)

theorem pagesExact_of_run {H : Type} {env : Env H} {outside : H} {now : ℕ}
    {tr : List (World H × Action H)} {w : World H}
    (hrun : Run (Step env) (.fresh outside now) tr w) :
    PagesExact w.storage ∧ w.storage.loadAllPlayers.Nodup := by
  have hw := wellFormed_of_run hrun
  refine ⟨getPlayers_exact (hw.capped.trans ?_), hw.nodup⟩
  decide

end InverseArena.Arena
