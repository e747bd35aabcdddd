import InverseArena.Backend.Entitlement
import InverseArena.Backend.Leaderboard
import InverseArena.Library.Tables
import Mathlib.Data.List.AList

/-!
# Games, wins and yields

The figures that the backend derives from the round tables: the profile of a player in
`backend/src/controllers/users.controller.ts`, counted in JavaScript, and the rows of the
leaderboard, counted by the query of `backend/src/controllers/leaderboard.controller.ts`. A query
without `ORDER BY` lists the rounds in any order.

Results:
* `arenasWon_eq_countGamesWon_iff`: when the query and the profile agree on the games won.
* `survivalStreak_eq`: what the streak counts, where the logs are those of the resolved rounds.
* `eliminationArenas_subset`: there, a player is eliminated only where it has played.
* `Unpaying.sumYieldEarned_eq`, `Unpaying.computeRank_eq`, `Unpaying.totalYield_eq`: the yields
  where no payout is the player's.
-/

namespace InverseArena.Backend

variable {N : Type}

/-! ## What the queries read -/

/-- `metadata.playerChoices`. -/
def RoundRow.choices (row : RoundRow N) : List (PlayerChoice N) :=
  (row.metadata.map (·.playerChoices)).getD []

/-- `choices.some((c) => c.userId === userId)`. -/
def RoundRow.hasChoice (row : RoundRow N) (userId : String) : Bool :=
  row.choices.any (·.userId = userId)

theorem RoundRow.hasChoice_iff {row : RoundRow N} {userId : String} :
    row.hasChoice userId = true ↔ ∃ choice ∈ row.choices, choice.userId = userId := by
  unfold RoundRow.hasChoice
  simp only [List.any_eq_true, decide_eq_true_eq]

/-- The eliminations stored with a round. -/
def RoundRow.eliminated (row : RoundRow N) : List String :=
  (row.metadata.map (·.eliminated)).getD []

namespace Database

variable (d : Database N) (ids : List String) (userId : String)

/-- The database lists its rounds in the order of `ids`. -/
structure Lists : Prop where
  nodup : ids.Nodup
  mem_iff : ∀ id, id ∈ ids ↔ (d.rounds id).isSome = true

/-- `prisma.round.findMany({ where: { state: "RESOLVED" } })`. -/
def resolvedRounds : List (RoundRow N) := (ids.filterMap d.rounds).filter (·.state = .RESOLVED)

/-- The arenas of the rounds for which an elimination of the user is logged, log by log. -/
def eliminationArenas : List String :=
  (d.eliminationLogs.filter (·.userId = userId)).filterMap fun log =>
    (d.rounds log.roundId).map (·.arenaId)

/-- The arenas of the resolved rounds with a choice of the user. -/
def choiceArenas : List String :=
  ((d.resolvedRounds ids).filter (·.hasChoice userId)).map (·.arenaId)

/-! ## `users.controller.ts` -/

/-- `countGamesPlayed(userId)`. -/
def countGamesPlayed : ℕ := (d.eliminationArenas userId ++ d.choiceArenas ids userId).toFinset.card

/-- `countGamesWon(userId)`. -/
def countGamesWon : ℕ :=
  let participatedArenaIds := (d.choiceArenas ids userId).toFinset
  if participatedArenaIds.card = 0 then 0
  else (participatedArenaIds.filter (· ∉ (d.eliminationArenas userId).toFinset)).card

section

variable [JsNumber N]

/-- `sumYieldEarned(userId)`. -/
def sumYieldEarned : N :=
  (d.resolvedRounds ids).foldl
    (fun totalYield round =>
      match round.payouts.find? (·.userId = userId) with
      | some payout => totalYield + payout.amount
      | none => totalYield)
    ((0 : ℕ) : N)

/-- `yieldByUser.set(p.userId, (yieldByUser.get(p.userId) ?? 0) + p.amount)`. -/
def addYield (yieldByUser : AList fun _ : String => N) (p : Payout N) : AList fun _ : String => N :=
  yieldByUser.insert p.userId ((yieldByUser.lookup p.userId).getD ((0 : ℕ) : N) + p.amount)

/-- `yieldByUser`. -/
def yieldByUser : AList fun _ : String => N :=
  (d.resolvedRounds ids).foldl (fun yields round => round.payouts.foldl addYield yields) ∅

/-- `computeRank(userId)`. -/
def computeRank [DecidableEq N] [DecidableLT N] : Option ℕ :=
  let userYield := ((d.yieldByUser ids).lookup userId).getD ((0 : ℕ) : N)
  if userYield = ((0 : ℕ) : N) then none
  else some (1 + (d.yieldByUser ids).entries.countP fun entry => userYield < entry.2)

end

end Database

/-- What `aggregateStats` returns. -/
structure UserStats where
  gamesPlayed : ℕ
  gamesWon : ℕ
  totalYieldEarned : String
  currentRank : Option ℕ
  deriving DecidableEq, Repr

/-- `aggregateStats(userId)`, where `toFixed` is `toFixed(2)`. -/
def aggregateStats [JsNumber N] [DecidableEq N] [DecidableLT N] (toFixed : N → String)
    (d : Database N) (ids : List String) (userId : String) : UserStats where
  gamesPlayed := d.countGamesPlayed ids userId
  gamesWon := d.countGamesWon ids userId
  totalYieldEarned := toFixed (d.sumYieldEarned ids userId)
  currentRank := d.computeRank ids userId

/-! ## The query of `leaderboard.controller.ts` -/

/-- A row of `round_choices`. -/
structure RoundChoice where
  arenaId : String
  userId : String
  payout : ℚ

/-- A row of `round_stats`. -/
structure RoundStats where
  totalYield : ℚ
  roundsParticipated : ℕ
  arenasParticipated : ℕ

/-- A row of `elim_stats`. -/
structure ElimStats where
  arenasEliminated : ℕ
  eliminations : ℕ

namespace Database

variable (numeric : N → ℚ) (d : Database N) (ids : List String) (userId : String)

/-- `round_choices`, where `numeric` is the cast of an amount to `numeric`. -/
def roundChoices : List RoundChoice :=
  (d.resolvedRounds ids).flatMap fun row => row.choices.map fun choice =>
    { arenaId := row.arenaId
      userId := choice.userId
      payout :=
        ((row.payouts.filter (·.userId = choice.userId)).map fun p => numeric p.amount).sum }

/-- The row of `round_stats` of a user; zeros where it has none. -/
def roundStats : RoundStats :=
  let choices := (d.roundChoices numeric ids).filter (·.userId = userId)
  { totalYield := (choices.map (·.payout)).sum
    roundsParticipated := choices.length
    arenasParticipated := (choices.map (·.arenaId)).toFinset.card }

/-- The row of `elim_stats` of a user; zeros where it has none. -/
def elimStats : ElimStats where
  arenasEliminated := (d.eliminationArenas userId).toFinset.card
  eliminations := (d.eliminationArenas userId).length

/-- `all_user_ids`. -/
def allUserIds : List String :=
  ((d.roundChoices numeric ids).map (·.userId) ++
    (d.eliminationLogs.filter fun log => (d.rounds log.roundId).isSome).map (·.userId)).dedup

/-- The row of a user in the result. -/
def standing (user : UserRow) : RawRow :=
  let rs := d.roundStats numeric ids userId
  let es := d.elimStats userId
  { id := userId
    walletAddress := user.walletAddress
    totalYield := rs.totalYield
    arenasWon := rs.arenasParticipated - es.arenasEliminated
    survivalStreak := rs.roundsParticipated - es.eliminations }

/-- The rows of the result; the query returns them ordered by `RawRow.key`. -/
def standings : List RawRow :=
  (d.allUserIds numeric ids).filterMap fun userId =>
    (d.users userId).map (d.standing numeric ids userId)

/-! ## The query and the profile -/

variable {numeric d ids userId}

theorem mem_resolvedRounds {row : RoundRow N} :
    row ∈ d.resolvedRounds ids ↔
      (∃ id ∈ ids, d.rounds id = some row) ∧ row.state = .RESOLVED := by
  unfold resolvedRounds
  rw [List.mem_filter, List.mem_filterMap, decide_eq_true_iff]

theorem mem_standings {row : RawRow} :
    row ∈ d.standings numeric ids ↔ ∃ userId ∈ d.allUserIds numeric ids,
      ∃ user ∈ d.users userId, d.standing numeric ids userId user = row := by
  unfold standings
  simp only [List.mem_filterMap, Option.map_eq_some_iff, Option.mem_def]

/-- The rows of `round_choices` of a user are in the arenas of its choices. -/
theorem toFinset_roundChoices :
    (((d.roundChoices numeric ids).filter (·.userId = userId)).map (·.arenaId)).toFinset =
      (d.choiceArenas ids userId).toFinset := by
  ext arenaId
  unfold roundChoices choiceArenas
  simp only [List.mem_toFinset, List.mem_map, List.mem_filter, List.mem_flatMap,
    decide_eq_true_eq, RoundRow.hasChoice_iff]
  constructor
  · rintro ⟨_, ⟨⟨row, hrow, choice, hchoice, rfl⟩, huser⟩, rfl⟩
    exact ⟨row, ⟨hrow, choice, hchoice, huser⟩, rfl⟩
  · rintro ⟨row, ⟨hrow, choice, hchoice, huser⟩, rfl⟩
    exact ⟨_, ⟨⟨row, hrow, choice, hchoice, rfl⟩, huser⟩, rfl⟩

theorem countGamesWon_eq : d.countGamesWon ids userId =
    ((d.choiceArenas ids userId).toFinset.filter
      (· ∉ (d.eliminationArenas userId).toFinset)).card := by
  unfold countGamesWon
  dsimp only
  split_ifs with hzero
  · rw [Finset.card_eq_zero.mp hzero]
    rfl
  · rfl

/-- The query counts the games won as the profile does exactly if the arenas in which the user
    has been eliminated are among those it has played in, or the other way round. -/
theorem arenasWon_eq_countGamesWon_iff {user : UserRow} :
    (d.standing numeric ids userId user).arenasWon = d.countGamesWon ids userId ↔
      (d.eliminationArenas userId).toFinset ⊆ (d.choiceArenas ids userId).toFinset ∨
      (d.choiceArenas ids userId).toFinset ⊆ (d.eliminationArenas userId).toFinset := by
  rw [countGamesWon_eq]
  show (((d.roundChoices numeric ids).filter (·.userId = userId)).map (·.arenaId)).toFinset.card -
    (d.eliminationArenas userId).toFinset.card = _ ↔ _
  rw [toFinset_roundChoices]
  exact Tables.card_sub_eq_card_filter_iff _ _

/-! ## Streaks -/

/-- The logs of a round are those of its resolution, and there are none before it. -/
def LogsResolved (d : Database N) : Prop :=
  ∀ roundId, ∀ row ∈ d.rounds roundId,
    row.state.resolvable = true ∧ d.logsOf roundId = [] ∨
      row.state = .RESOLVED ∧ d.logsOf roundId = Backend.eliminationLogs roundId row.eliminated

/-- Each round has at most one choice of a player, and eliminates players with a choice, each of
    them once. -/
def FairRounds (d : Database N) : Prop :=
  ∀ roundId, ∀ row ∈ d.rounds roundId, (row.choices.map (·.userId)).Nodup ∧
    row.eliminated.Nodup ∧ ∀ id ∈ row.eliminated, row.hasChoice id = true

theorem length_filter_eliminationLogs (roundId : String) {eliminated : List String}
    (hnodup : eliminated.Nodup) :
    ((Backend.eliminationLogs roundId eliminated).filter (·.userId = userId)).length =
      if userId ∈ eliminated then 1 else 0 := by
  unfold Backend.eliminationLogs
  rw [List.filter_map, List.length_map, ← hnodup.count, List.count_eq_length_filter]
  rfl

theorem length_filter_choices {row : RoundRow N} (hnodup : (row.choices.map (·.userId)).Nodup) :
    (row.choices.filter (·.userId = userId)).length = if row.hasChoice userId then 1 else 0 := by
  have hmap : (row.choices.filter (·.userId = userId)).length =
      (row.choices.map (·.userId)).count userId := by
    rw [List.count_eq_length_filter, List.filter_map, List.length_map]
    rfl
  rw [hmap, hnodup.count]
  refine if_congr ?_ rfl rfl
  rw [RoundRow.hasChoice_iff, List.mem_map]

/-- The choices of a user, round by round. -/
theorem roundsParticipated_eq (hfair : d.FairRounds) :
    (d.roundStats numeric ids userId).roundsParticipated =
      ((d.resolvedRounds ids).map fun row => if row.hasChoice userId then 1 else 0).sum := by
  show ((d.roundChoices numeric ids).filter (·.userId = userId)).length = _
  unfold roundChoices
  rw [List.filter_flatMap, List.length_flatMap]
  refine congrArg List.sum (List.map_congr_left fun row hrow => ?_)
  obtain ⟨⟨id, -, hid⟩, -⟩ := mem_resolvedRounds.mp hrow
  rw [List.filter_map, List.length_map, ← length_filter_choices (hfair id row hid).1]
  rfl

/-- The logged eliminations of a user, round by round. -/
theorem eliminations_eq (hlists : d.Lists ids) (hlogs : d.LogsResolved) (hfair : d.FairRounds) :
    (d.elimStats userId).eliminations =
      ((d.resolvedRounds ids).map fun row => if userId ∈ row.eliminated then 1 else 0).sum := by
  have hlength : (d.elimStats userId).eliminations =
      ((d.eliminationLogs.filter (·.userId = userId)).filter (·.roundId ∈ ids)).length := by
    show ((d.eliminationLogs.filter (·.userId = userId)).filterMap _).length = _
    rw [List.length_filterMap_eq_countP, ← List.countP_eq_length_filter]
    refine List.countP_congr fun log _ => ?_
    rw [Option.isSome_map, decide_eq_true_iff, hlists.mem_iff]
  rw [hlength, Tables.length_filter_mem hlists.nodup]
  have hround : ∀ id ∈ ids, ((d.eliminationLogs.filter (·.userId = userId)).filter
      (·.roundId = id)).length = (((d.rounds id).toList.filter (·.state = .RESOLVED)).map
        fun row => if userId ∈ row.eliminated then 1 else 0).sum := by
    intro id hid
    obtain ⟨row, hrow⟩ := Option.isSome_iff_exists.mp ((hlists.mem_iff id).mp hid)
    rw [List.filter_comm]
    show ((d.logsOf id).filter _).length = _
    rw [hrow, Option.toList_some]
    obtain ⟨hstate, hnil⟩ | ⟨hstate, heq⟩ := hlogs id row hrow
    · have hne : row.state ≠ .RESOLVED := by
        rintro hresolved
        rw [hresolved] at hstate
        cases hstate
      simp [hnil, hne]
    · rw [heq, length_filter_eliminationLogs id (hfair id row hrow).2.1]
      simp [hstate]
  rw [List.map_congr_left hround]
  unfold resolvedRounds
  rw [List.filterMap_eq_flatMap_toList, List.filter_flatMap, List.map_flatMap,
    List.flatMap_def, List.sum_flatten, List.map_map]
  rfl

/-- The streak counts the resolved rounds in which the player has a choice and is not
    eliminated. -/
theorem survivalStreak_eq (hlists : d.Lists ids) (hlogs : d.LogsResolved) (hfair : d.FairRounds)
    (user : UserRow) :
    (d.standing numeric ids userId user).survivalStreak =
      ((d.resolvedRounds ids).filter fun row =>
        row.hasChoice userId && decide (userId ∉ row.eliminated)).length := by
  show (d.roundStats numeric ids userId).roundsParticipated -
    (d.elimStats userId).eliminations = _
  have hchosen : ∀ row ∈ d.resolvedRounds ids, userId ∈ row.eliminated →
      row.hasChoice userId = true := by
    intro row hrow hmem
    obtain ⟨⟨id, -, hid⟩, -⟩ := mem_resolvedRounds.mp hrow
    exact (hfair id row hid).2.2 userId hmem
  rw [roundsParticipated_eq hfair, eliminations_eq hlists hlogs hfair]
  have hsub := Tables.sum_sub_sum (p := (·.hasChoice userId))
    (q := fun row => decide (userId ∈ row.eliminated)) (l := d.resolvedRounds ids)
    fun row hrow hmem => hchosen row hrow (of_decide_eq_true hmem)
  simpa only [decide_eq_true_eq, decide_not] using hsub

/-- The arenas in which a player has been eliminated are among those it has played in. -/
theorem eliminationArenas_subset (hlists : d.Lists ids) (hlogs : d.LogsResolved)
    (hfair : d.FairRounds) :
    (d.eliminationArenas userId).toFinset ⊆ (d.choiceArenas ids userId).toFinset := by
  intro arenaId
  unfold eliminationArenas choiceArenas
  simp only [List.mem_toFinset, List.mem_filterMap, List.mem_filter, decide_eq_true_eq,
    Option.map_eq_some_iff, List.mem_map]
  rintro ⟨log, ⟨hlog, huser⟩, row, hrow, harena⟩
  have hmem : log ∈ d.logsOf log.roundId := List.mem_filter.mpr ⟨hlog, decide_eq_true rfl⟩
  obtain ⟨-, hnil⟩ | ⟨hstate, heq⟩ := hlogs log.roundId row hrow
  · rw [hnil] at hmem
    cases hmem
  · rw [heq] at hmem
    obtain ⟨id, hid, hlogid⟩ := List.mem_map.mp hmem
    have hchoice := (hfair log.roundId row hrow).2.2 id hid
    rw [← hlogid] at huser
    subst huser
    have hids : log.roundId ∈ ids :=
      (hlists.mem_iff _).mpr (Option.isSome_iff_exists.mpr ⟨row, hrow⟩)
    exact ⟨row, ⟨mem_resolvedRounds.mpr ⟨⟨_, hids, hrow⟩, hstate⟩, hchoice⟩, harena⟩

/-! ## Figures without payouts -/

/-- No player of a round, and nobody whose elimination is logged, is `userId`. -/
structure Stranger (d : Database N) (userId : String) : Prop where
  choices : ∀ roundId, ∀ row ∈ d.rounds roundId, row.hasChoice userId = false
  logs : ∀ log ∈ d.eliminationLogs, log.userId ≠ userId

/-- No payout on record is `userId`'s. -/
def Unpaying (d : Database N) (userId : String) : Prop :=
  ∀ roundId, ∀ row ∈ d.rounds roundId, ∀ payout ∈ row.payouts, payout.userId ≠ userId

theorem Stranger.eliminationArenas_eq (h : d.Stranger userId) :
    d.eliminationArenas userId = [] := by
  unfold eliminationArenas
  rw [List.filter_eq_nil_iff.mpr, List.filterMap_nil]
  intro log hlog heq
  exact h.logs log hlog (of_decide_eq_true heq)

theorem Stranger.choiceArenas_eq (h : d.Stranger userId) : d.choiceArenas ids userId = [] := by
  unfold choiceArenas
  rw [List.filter_eq_nil_iff.mpr, List.map_nil]
  intro row hrow heq
  obtain ⟨⟨id, -, hid⟩, -⟩ := mem_resolvedRounds.mp hrow
  rw [h.choices id row hid] at heq
  cases heq

section

variable [JsNumber N]

theorem Unpaying.sumYieldEarned_eq (h : d.Unpaying userId) :
    d.sumYieldEarned ids userId = ((0 : ℕ) : N) := by
  unfold sumYieldEarned
  refine List.foldlRecOn (motive := (· = ((0 : ℕ) : N))) _ _ rfl fun total htotal row hrow => ?_
  obtain ⟨⟨id, -, hid⟩, -⟩ := mem_resolvedRounds.mp hrow
  have hnone : row.payouts.find? (·.userId = userId) = none :=
    List.find?_eq_none.mpr fun p hp heq => h id row hid p hp (of_decide_eq_true heq)
  rw [hnone]
  exact htotal

theorem Unpaying.lookup_eq (h : d.Unpaying userId) :
    (d.yieldByUser ids).lookup userId = none := by
  unfold yieldByUser
  refine List.foldlRecOn (motive := fun yields => AList.lookup userId yields = none) _ _
    (AList.lookup_empty userId) fun yields hyields row hrow => ?_
  obtain ⟨⟨id, -, hid⟩, -⟩ := mem_resolvedRounds.mp hrow
  refine List.foldlRecOn (motive := fun yields => AList.lookup userId yields = none) _ _
    hyields fun yields hyields p hp => ?_
  unfold addYield
  rw [AList.lookup_insert_ne (h id row hid p hp).symm]
  exact hyields

theorem Unpaying.computeRank_eq [DecidableEq N] [DecidableLT N] (h : d.Unpaying userId) :
    d.computeRank ids userId = none := by
  unfold computeRank
  rw [h.lookup_eq, Option.getD_none]
  exact if_pos rfl

end

theorem Unpaying.totalYield_eq (h : d.Unpaying userId) (user : UserRow) :
    (d.standing numeric ids userId user).totalYield = 0 := by
  show (((d.roundChoices numeric ids).filter (·.userId = userId)).map (·.payout)).sum = 0
  refine List.sum_eq_zero fun x hx => ?_
  obtain ⟨choice, hchoice, rfl⟩ := List.mem_map.mp hx
  obtain ⟨hchoice, huser⟩ := List.mem_filter.mp hchoice
  obtain ⟨row, hrow, hrow'⟩ := List.mem_flatMap.mp hchoice
  obtain ⟨c, -, rfl⟩ := List.mem_map.mp hrow'
  obtain ⟨⟨id, -, hid⟩, -⟩ := mem_resolvedRounds.mp hrow
  have hc : c.userId = userId := of_decide_eq_true huser
  have hnil : row.payouts.filter (·.userId = c.userId) = [] := by
    refine List.filter_eq_nil_iff.mpr fun p hp heq => ?_
    exact h id row hid p hp ((of_decide_eq_true heq).trans hc)
  show ((row.payouts.filter (·.userId = c.userId)).map _).sum = 0
  rw [hnil]
  rfl

end Database

end InverseArena.Backend
